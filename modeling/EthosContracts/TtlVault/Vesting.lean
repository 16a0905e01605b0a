/-
**Vesting** (`vesting.rs`, the catch-up and bonus claims of `withdrawal_and_tokens.rs`, the
schedules per beneficiary of `views.rs`): schedules in equal installments, the claims on the first
schedule of a released vault, and the owner's claim on what is not vested.
-/

import EthosContracts.TtlVault.Release

namespace EthosContracts.TtlVault

open Lib Function

variable (env : Env) (id : VaultId) (caller : Address) (vault : Vault) (schedule : VestingSchedule)

/-! ### Schedules -/

def setSchedule (index : Nat) (schedule : Option VestingSchedule) : Contract Unit :=
  write fun s => { s with
    vesting.schedule := update s.vesting.schedule id
      (update (s.vesting.schedule id) index schedule) }

/-- The schedules stored under the indices below the count. -/
def storedSchedules (s : State) (id : VaultId) : List VestingSchedule :=
  (List.range (s.vesting.scheduleCount id)).filterMap (s.vesting.schedule id)

def sumScheduled : List VestingSchedule → Int → Contract Int
  | [], total => pure total
  | schedule :: rest, total => do
    let total ← checkedAdd total schedule.totalAmount .balanceOverflow
    sumScheduled rest total

def setVestingSchedule (startTime interval numInstallments : Nat) (amount : Int) (cliffPeriod : Nat)
    : Contract Unit := do
  assertNotPaused
  let vault ← loadOwnedLocked env id caller
  require (interval ≠ 0 ∧ numInstallments ≠ 0) .invalidInterval
  let duration ← u64 (interval * numInstallments)
  let endTime ← u64 (startTime + duration)
  require (startTime < endTime) .invalidVestingSchedule
  require (vault.balance ≠ 0) .emptyVault
  require (0 < amount) .invalidAmount
  let schedules ← read (storedSchedules · id)
  let total ← sumScheduled schedules amount
  require (total ≤ vault.balance) .insufficientBalance
  let count ← read (·.vesting.scheduleCount id)
  require (count < 20) .vaultCapacityExceeded
  setSchedule id count (some ⟨startTime, interval, numInstallments, 0, amount, cliffPeriod⟩)
  write fun s => { s with
    vesting.scheduleCount := update s.vesting.scheduleCount id (count + 1) }

/-- `i128::saturating_add` and `saturating_sub`. -/
def saturateI128 (value : Int) : Int := max (-maxI128 - 1) (min value maxI128)

/-- The unclaimed amount is added to the balance, which the schedule never left. -/
def cancelVestingSchedule (scheduleId : Nat) (caller : Address) : Contract Unit := do
  let vault ← loadOwned env id caller
  let stored ← read (·.vesting.schedule id scheduleId)
  let schedule ← found stored .vestingNotFound
  let perInstallment ← i128Div schedule.totalAmount schedule.numInstallments
  let claimed ← i128 (perInstallment * schedule.claimedInstallments)
  let unclaimed := saturateI128 (schedule.totalAmount - claimed)
  saveVault id { vault with balance := saturateI128 (vault.balance + unclaimed) }
  setSchedule id scheduleId none

def setVestingPenalty (penaltyBps gracePeriodSeconds : Nat) : Contract Unit := do
  let _ ← loadOwned env id caller
  let schedule ← read (·.vesting.schedule id 0)
  require (schedule.isSome) .vestingNotFound
  require (penaltyBps ≠ 0 ∧ penaltyBps ≤ 10000) .invalidBps
  write fun s => { s with
    vesting.penalty := update s.vesting.penalty id
      (update (s.vesting.penalty id) 0 (some ⟨penaltyBps, gracePeriodSeconds⟩)) }

def setVestingRollover (enabled : Bool) : Contract Unit := do
  assertNotPaused
  let _ ← loadOwned env id caller
  write fun s => { s with
    vesting.rollover := update s.vesting.rollover id (some ⟨enabled, 0⟩) }

def setVestingForfeiture (forfeitureRecipient : Address) : Contract Unit := do
  assertNotPaused
  let _ ← loadOwned env id caller
  write fun s => { s with
    vesting.forfeiture := update s.vesting.forfeiture id (some ⟨forfeitureRecipient, false⟩) }

def setVestingAcceleration (oracle : Address) : Contract Unit := do
  assertNotPaused
  let _ ← loadOwned env id caller
  write fun s => { s with
    vesting.acceleration := update s.vesting.acceleration id (some ⟨oracle, false⟩) }

def accelerateVesting : Contract Unit := do
  assertNotPaused
  requireAuth env caller
  let stored ← read (·.vesting.acceleration id)
  let config ← found stored .vestingNotFound
  require (caller = config.oracle) .notOwner
  require (config.accelerated = false) .vestingAlreadyAccelerated
  write fun s => { s with
    vesting.acceleration := update s.vesting.acceleration id
      (some { config with accelerated := true }) }

def setVestingCatchup (enabled : Bool) (maxCatchupInstallments : Nat) : Contract Unit := do
  assertNotPaused
  let _ ← loadOwned env id caller
  write fun s => { s with
    vesting.catchUp := update s.vesting.catchUp id (some ⟨enabled, maxCatchupInstallments⟩) }

def setVestingBonus (bonusBps onTimeWindowSeconds : Nat) : Contract Unit := do
  assertNotPaused
  let _ ← loadOwned env id caller
  require (bonusBps ≠ 0 ∧ bonusBps ≤ 10000) .invalidBps
  write fun s => { s with
    vesting.bonus := update s.vesting.bonus id (some ⟨bonusBps, onTimeWindowSeconds⟩) }

/-! ### Claims on the first schedule -/

def loadClaimable : Contract VestingSchedule := do
  require (vault.status = .released) .alreadyReleased
  let stored ← read (·.vesting.schedule id 0)
  let schedule ← found stored .vestingNotFound
  require (schedule.claimedInstallments < schedule.numInstallments) .vestingAlreadyComplete
  require (schedule.startTime ≤ env.now) .nothingToClaimYet
  pure schedule

def assertCliffReached : Contract Unit :=
  if 0 < schedule.cliffPeriod then do
    let cliff ← u64 (schedule.startTime + schedule.cliffPeriod)
    require (cliff ≤ env.now) .cliffNotReached
  else pure ()

/-- The installments unlocked by now, the first one at the start. -/
def unlockedInstallments (startTime interval numInstallments : Nat) : Contract Nat := do
  ensure (interval ≠ 0) .divisionByZero
  let periods ← u64 ((env.now - startTime) / interval + 1)
  pure (min periods numInstallments)

def acceleratedInstallments : Contract Nat := do
  let acceleration ← read (·.vesting.acceleration id)
  if acceleration.any (·.accelerated) then pure schedule.numInstallments
  else unlockedInstallments env schedule.startTime schedule.interval schedule.numInstallments

/-- When the installments after the claimed ones unlocked. -/
def VestingSchedule.unlockTimes (unlocked : Nat) : List Nat :=
  (List.range' (schedule.claimedInstallments + 1) (unlocked - schedule.claimedInstallments)).map
    fun i => saturatingAdd schedule.startTime (min ((i - 1) * schedule.interval) maxU64)

def baseAmount (claimed claimable : Nat) : Contract Int := do
  let perInstallment ← i128Div schedule.totalAmount schedule.numInstallments
  if schedule.numInstallments ≤ claimed then pure vault.balance
  else i128 (perInstallment * claimable)

/-- What has been rolled over is added to a claim once. -/
def takeRollover (base : Int) : Contract Int := do
  let config ← read (·.vesting.rollover id)
  match config with
  | some config =>
    if config.enabled = true ∧ 0 < config.rolledAmount then do
      let amount ← i128 (base + config.rolledAmount)
      write fun s => { s with
        vesting.rollover := update s.vesting.rollover id (some { config with rolledAmount := 0 }) }
      pure amount
    else pure base
  | none => pure base

/-- The amount after the penalty for installments claimed late. -/
def penalizedAmount (unlocked claimable : Nat) (base : Int) : Contract Int := do
  let config ← read (·.vesting.penalty id 0)
  match config with
  | some config =>
    let late := (schedule.unlockTimes unlocked).countP (· < env.now - config.gracePeriodSeconds)
    if 0 < late then do
      let perInstallment ← i128Div schedule.totalAmount schedule.numInstallments
      let onTimeAmount ← i128 (perInstallment * ((claimable - late : Nat) : Int))
      let lateAmount ← i128 (perInstallment * late)
      let scaled ← i128 (lateAmount * config.penaltyBps)
      let sum ← i128 (onTimeAmount + lateAmount)
      let penalized ← i128 (sum - scaled.tdiv 10000)
      pure (if schedule.numInstallments ≤ unlocked then min penalized vault.balance
        else penalized)
    else pure base
  | none => pure base

def settleClaim (amount : Int) (claimed : Nat) : Contract Unit := do
  require (amount ≤ vault.balance) .insufficientBalance
  payBeneficiaries env id vault amount
  let balance ← i128 (vault.balance - amount)
  saveVault id { vault with balance := balance }
  setSchedule id 0 (some { schedule with claimedInstallments := claimed })

def claimVestedInstallment : Contract Unit := do
  assertNotPaused
  let vault ← loadVault id
  let schedule ← loadClaimable env id vault
  assertCliffReached env schedule
  let unlocked ← acceleratedInstallments env id schedule
  let claimable := unlocked - schedule.claimedInstallments
  let rollover ← read (·.vesting.rollover id)
  require (claimable ≠ 0 ∨ rollover.any (fun c => c.enabled ∧ c.rolledAmount ≠ 0) = true)
    .nothingToClaimYet
  let base ← baseAmount vault schedule unlocked claimable
  let rolled ← takeRollover id base
  let amount ← penalizedAmount env id vault schedule unlocked claimable rolled
  settleClaim env id vault schedule amount unlocked

def claimCatchupVesting : Contract Unit := do
  assertNotPaused
  let vault ← loadVault id
  require (vault.status = .released) .alreadyReleased
  let stored ← read (·.vesting.catchUp id)
  let config ← found stored .catchUpNotEnabled
  require (config.enabled = true) .catchUpNotEnabled
  let schedule ← loadClaimable env id vault
  assertCliffReached env schedule
  let unlocked ←
    unlockedInstallments env schedule.startTime schedule.interval schedule.numInstallments
  require (unlocked - schedule.claimedInstallments ≠ 0) .nothingToClaimYet
  let claimable :=
    if 0 < config.maxCatchupInstallments then
      min (unlocked - schedule.claimedInstallments) config.maxCatchupInstallments
    else unlocked - schedule.claimedInstallments
  let claimed := schedule.claimedInstallments + claimable
  let amount ← baseAmount vault schedule claimed claimable
  settleClaim env id vault schedule amount claimed

/-- No installment was claimed later than the window after its unlock time. -/
def allOnTime (now window : Nat) : List Nat → Contract Bool
  | [] => pure true
  | unlockTime :: rest => do
    let limit ← u64 (unlockTime + window)
    if limit < now then pure false else allOnTime now window rest

/-- The bonus on a claim made on time, times ten thousand. -/
def scaledBonus (config : VestingBonusConfig) (onTime : Bool) (base : Int) : Contract Int :=
  if onTime then i128 (base * config.bonusBps) else pure 0

def claimWithBonus : Contract Unit := do
  assertNotPaused
  let vault ← loadVault id
  require (vault.status = .released) .alreadyReleased
  let stored ← read (·.vesting.bonus id)
  let config ← found stored .bonusNotEnabled
  let schedule ← loadClaimable env id vault
  assertCliffReached env schedule
  let unlocked ←
    unlockedInstallments env schedule.startTime schedule.interval schedule.numInstallments
  let claimable := unlocked - schedule.claimedInstallments
  require (claimable ≠ 0) .nothingToClaimYet
  let base ← baseAmount vault schedule unlocked claimable
  let onTime ← allOnTime env.now config.onTimeWindowSeconds (schedule.unlockTimes unlocked)
  let scaled ← scaledBonus config onTime base
  let total ← i128 (base + scaled.tdiv 10000)
  -- a balance that does not cover the bonus pays the base amount
  settleClaim env id vault schedule
    (if vault.balance < total then min base vault.balance else total) unlocked

/-! ### Claims with a reversal window -/

def setPendingClaim (claim : Option VestingPendingClaim) : Contract Unit :=
  write fun s => { s with
    vesting.pendingClaim := update s.vesting.pendingClaim id
      (update (s.vesting.pendingClaim id) 0 claim) }

/-- The payee of a pending claim is fixed here: the first listed beneficiary, or the primary one. -/
def initiateVestingClaim (reversalWindowSeconds : Nat) : Contract Unit := do
  assertNotPaused
  require (reversalWindowSeconds ≠ 0) .invalidInterval
  let existing ← read (·.vesting.pendingClaim id 0)
  require (existing.isNone) .invalidAmount
  let vault ← loadVault id
  let schedule ← loadClaimable env id vault
  let unlocked ←
    unlockedInstallments env schedule.startTime schedule.interval schedule.numInstallments
  let claimable := unlocked - schedule.claimedInstallments
  require (claimable ≠ 0) .nothingToClaimYet
  let amount ← baseAmount vault schedule unlocked claimable
  let reversalDeadline ← u64 (env.now + reversalWindowSeconds)
  setSchedule id 0 (some { schedule with claimedInstallments := unlocked })
  setPendingClaim id
    (some
      { amount := amount
        beneficiary := (vault.beneficiaries.head?.map (·.address)).getD vault.beneficiary
        initiatedAt := env.now
        reversalDeadline := reversalDeadline
        newInstallmentsClaimed := unlocked
        prevInstallmentsClaimed := schedule.claimedInstallments })

def reverseVestingClaim : Contract Unit := do
  let _ ← loadOwned env id caller
  let stored ← read (·.vesting.pendingClaim id 0)
  let pending ← found stored .vestingReversalNotFound
  require (env.now ≤ pending.reversalDeadline) .vestingReversalExpired
  let schedule ← read (·.vesting.schedule id 0)
  setSchedule id 0 (schedule.map fun schedule =>
    { schedule with claimedInstallments := pending.prevInstallmentsClaimed })
  setPendingClaim id none

/-- The status of the vault is not checked again. -/
def finalizeVestingClaim : Contract Unit := do
  assertNotPaused
  let stored ← read (·.vesting.pendingClaim id 0)
  let pending ← found stored .vestingReversalNotFound
  require (pending.reversalDeadline < env.now) .invalidInterval
  let vault ← loadVault id
  require (pending.amount ≤ vault.balance) .insufficientBalance
  requireAmlCompliant env pending.beneficiary
  payOut env id vault.tokenAddress pending.beneficiary pending.amount
  let balance ← i128 (vault.balance - pending.amount)
  saveVault id { vault with balance := balance }
  setPendingClaim id none

/-! ### Clawback -/

def sumUnvested : List VestingSchedule → Int → Contract Int
  | [], total => pure total
  | schedule :: rest, total => do
    let remaining ← u64Sub schedule.numInstallments schedule.claimedInstallments
    if 0 < remaining then do
      let perInstallment ← i128Div schedule.totalAmount schedule.numInstallments
      let unvested ← i128 (perInstallment * remaining)
      let total ← i128 (total + unvested)
      sumUnvested rest total
    else sumUnvested rest total

def clawbackUnvested : Contract Unit := do
  assertNotPaused
  let vault ← loadOwned env id caller
  require (vault.status = .released) .alreadyReleased
  let count ← read (·.vesting.scheduleCount id)
  require (count ≠ 0) .vestingNotFound
  let schedules ← read (storedSchedules · id)
  let unvested ← sumUnvested schedules 0
  require (unvested ≠ 0) .nothingToClawback
  require (unvested ≤ vault.balance) .insufficientBalance
  payOut env id vault.tokenAddress vault.owner unvested
  let balance ← i128 (vault.balance - unvested)
  -- the second loop: every schedule counts as claimed
  write fun s => { s with
    vesting.schedule := update s.vesting.schedule id fun index =>
      if index < count then
        (s.vesting.schedule id index).map fun schedule =>
          { schedule with claimedInstallments := schedule.numInstallments }
      else s.vesting.schedule id index }
  saveVault id { vault with balance := balance }

end EthosContracts.TtlVault
