/-
**What the claims on the first vesting schedule do.**
-/

import EthosContracts.TtlVault.Payments
import EthosContracts.TtlVault.VestingPlans

namespace EthosContracts.TtlVault

open Lib Function

variable (vesting : VestingState)

variable (schedule : VestingSchedule)

/-! ### Installments -/

/-- The installments unlocked at a time: none before the start, the first one at the start. -/
def VestingSchedule.unlocked (now : Nat) : Nat :=
  if now < schedule.startTime then 0
  else min schedule.numInstallments ((now - schedule.startTime) / schedule.interval + 1)

def VestingSchedule.perInstallment : Int :=
  schedule.totalAmount.tdiv schedule.numInstallments

def VestingSchedule.claimedUpTo (count : Nat) : VestingSchedule :=
  { schedule with claimedInstallments := count }

def claimAmount (vault : Vault) (schedule : VestingSchedule) (count : Nat) : Int :=
  if schedule.numInstallments ≤ count then vault.balance
  else schedule.perInstallment * ((count - schedule.claimedInstallments : Nat) : Int)

theorem VestingSchedule.unlocked_mono {now later : Nat} (le : now ≤ later) : schedule.unlocked now ≤
    schedule.unlocked later := by
  unfold VestingSchedule.unlocked
  by_cases started : now < schedule.startTime
  · rw [if_pos started]
    exact Nat.zero_le _
  · have laterStarted : ¬ later < schedule.startTime := by omega
    rw [if_neg started, if_neg laterStarted]
    have periods : (now - schedule.startTime) / schedule.interval ≤
        (later - schedule.startTime) / schedule.interval := Nat.div_le_div_right (by omega)
    omega

@[simp] theorem VestingSchedule.unlocked_claimedUpTo (count now : Nat) :
    (schedule.claimedUpTo count).unlocked now = schedule.unlocked now := rfl

/-- Nothing changes what a claim of the first schedule pays: no penalty, no amount rolled over, no
acceleration. -/
structure State.Unmodified (s : State) (id : VaultId) : Prop where
  penalty : s.vesting.penalty id 0 = none
  rollover : ∀ config ∈ s.vesting.rollover id, config.rolledAmount = 0
  acceleration : ∀ config ∈ s.vesting.acceleration id, config.accelerated = false

theorem State.Unmodified.congr {s t : State} {id : VaultId} (unmodified : s.Unmodified id)
    (penalty : t.vesting.penalty = s.vesting.penalty)
    (rollover : t.vesting.rollover = s.vesting.rollover)
    (acceleration : t.vesting.acceleration = s.vesting.acceleration) : t.Unmodified id where
  penalty := by
    rw [penalty]
    exact unmodified.penalty
  rollover := by
    rw [rollover]
    exact unmodified.rollover
  acceleration := by
    rw [acceleration]
    exact unmodified.acceleration

/-- The first schedule of a released vault has started and is not claimed in full. -/
structure Claimable (env : Env) (id : VaultId) (vault : Vault) (schedule : VestingSchedule)
    (s : State) : Prop where
  found : s.vaults id = some vault
  released : vault.status = .released
  stored : s.vesting.schedule id 0 = some schedule
  remaining : schedule.claimedInstallments < schedule.numInstallments
  started : schedule.startTime ≤ env.now

def VestingState.withFirst (vesting : VestingState) (id : VaultId)
    (schedule : Option VestingSchedule) : VaultId → Nat → Option VestingSchedule :=
  update vesting.schedule id (update (vesting.schedule id) 0 schedule)

def VestingState.withPending (vesting : VestingState) (id : VaultId)
    (claim : Option VestingPendingClaim) : VaultId → Nat → Option VestingPendingClaim :=
  update vesting.pendingClaim id (update (vesting.pendingClaim id) 0 claim)

@[simp] theorem withFirst_self (id : VaultId) (schedule : Option VestingSchedule) :
    vesting.withFirst id schedule id 0 = schedule := by
  simp [VestingState.withFirst]

@[simp] theorem withPending_self (id : VaultId) (claim : Option VestingPendingClaim) :
    vesting.withPending id claim id 0 = claim := by
  simp [VestingState.withPending]

theorem withFirst_of_ne (id : VaultId) (schedule : Option VestingSchedule) {index : Nat}
    (other : index ≠ 0) :
    vesting.withFirst id schedule id index = vesting.schedule id index := by
  simp [VestingState.withFirst, other]

theorem withPending_of_ne (id : VaultId) (claim : Option VestingPendingClaim) {index : Nat}
    (other : index ≠ 0) :
    vesting.withPending id claim id index = vesting.pendingClaim id index := by
  simp [VestingState.withPending, other]

theorem withFirst_stored (id : VaultId) :
    vesting.withFirst id (vesting.schedule id 0) = vesting.schedule := by
  simp [VestingState.withFirst]

theorem withPending_stored (id : VaultId) :
    vesting.withPending id (vesting.pendingClaim id 0) = vesting.pendingClaim := by
  simp [VestingState.withPending]

/-- **A claim that pays at once**: `amount` leaves the balance, and the installments up to `count`
are claimed. -/
structure Settled (id : VaultId) (vault : Vault) (schedule : VestingSchedule) (amount : Int)
    (count : Nat) (s t : State) : Prop where
  covered : amount ≤ vault.balance
  vaults : t.vaults = update s.vaults id (some { vault with balance := vault.balance - amount })
  schedule : t.vesting.schedule = s.vesting.withFirst id (some (schedule.claimedUpTo count))
  count : t.vesting.scheduleCount = s.vesting.scheduleCount
  pending : t.vesting.pendingClaim = s.vesting.pendingClaim
  unmodified : s.Unmodified id → t.Unmodified id
  paid : 0 ≤ amount → (vault.beneficiaries.map (·.bps)).sum ≤ 10000 →
    t.paidFrom id = s.paidFrom id + amount

section Claims

variable (env : Env) (id : VaultId) (s : State)
variable {schedule : VestingSchedule} (vault : Vault)

/-! ### The parts of a claim -/

@[simp] theorem wp_loadClaimable (Q : VestingSchedule → State → Prop) :
    (loadClaimable env id vault).wp s Q ↔
      (vault.status = .released → ∀ schedule, s.vesting.schedule id 0 = some schedule →
        schedule.claimedInstallments < schedule.numInstallments → schedule.startTime ≤ env.now →
        Q schedule s) := by
  simp only [loadClaimable, wp_rules]

section

variable (started : schedule.startTime ≤ env.now)
include started

theorem assertCliffReached_spec :
    (assertCliffReached env schedule).wp s fun _ t =>
      t = s ∧ schedule.startTime + schedule.cliffPeriod ≤ env.now := by
  simp only [assertCliffReached, wp_rules]
  refine ⟨fun _ _ reached => ⟨trivial, reached⟩, fun none => ⟨trivial, ?_⟩⟩
  omega

theorem unlockedInstallments_spec :
    (unlockedInstallments env schedule.startTime schedule.interval schedule.numInstallments).wp s
      fun unlocked t => t = s ∧ unlocked = schedule.unlocked env.now := by
  simp only [unlockedInstallments, wp_rules]
  intro _ _
  refine ⟨trivial, ?_⟩
  unfold VestingSchedule.unlocked
  rw [if_neg (by omega), Nat.min_comm]

theorem acceleratedInstallments_spec :
    (acceleratedInstallments env id schedule).wp s fun unlocked t =>
      t = s ∧ (s.Unmodified id → unlocked = schedule.unlocked env.now) := by
  simp only [acceleratedInstallments, wp_rules]
  refine ⟨fun accelerated => ⟨trivial, fun unmodified => ?_⟩, fun _ => ?_⟩
  · obtain ⟨config, stored, done⟩ := (Option.any_eq_true _ _).mp accelerated
    rw [unmodified.acceleration config stored] at done
    cases done
  · exact (unlockedInstallments_spec env s started).mono fun _ t spec => ⟨spec.1, fun _ => spec.2⟩

end

theorem baseAmount_spec (schedule : VestingSchedule) (count : Nat) :
    (baseAmount vault schedule count (count - schedule.claimedInstallments)).wp s fun amount t =>
      t = s ∧ amount = claimAmount vault schedule count := by
  simp only [baseAmount, claimAmount, VestingSchedule.perInstallment, wp_rules]
  intro _
  refine ⟨fun last => ⟨trivial, ?_⟩, fun more _ => ⟨trivial, ?_⟩⟩
  · rw [if_pos last]
  · rw [if_neg more]

theorem takeRollover_spec (base : Int) : (takeRollover id base).wp s fun amount t =>
      (∃ rollover, t = { s with vesting.rollover := rollover } ∧
        (s.Unmodified id → t.Unmodified id)) ∧
      (s.Unmodified id → amount = base) := by
  have same : ∃ rollover, s = { s with vesting.rollover := rollover } ∧
      (s.Unmodified id → s.Unmodified id) := ⟨s.vesting.rollover, rfl, fun kept => kept⟩
  simp only [takeRollover, wp_rules]
  split
  · rename_i config stored
    simp only [wp_rules]
    refine ⟨fun rolled _ => ⟨⟨_, rfl, fun unmodified => ?_⟩, fun unmodified => ?_⟩, fun _ =>
      ⟨same, fun _ => trivial⟩⟩
    · exact absurd (unmodified.rollover config stored) rolled.2.ne'
    · exact absurd (unmodified.rollover config stored) rolled.2.ne'
  · rw [wp_pure]
    exact ⟨same, fun _ => rfl⟩

theorem penalizedAmount_spec (schedule : VestingSchedule) (unlocked claimable : Nat) (base : Int) :
    (penalizedAmount env id vault schedule unlocked claimable base).wp s fun amount t =>
      t = s ∧ (s.Unmodified id → amount = base) := by
  simp only [penalizedAmount, wp_rules]
  split
  · rename_i config stored
    have modified : ∀ amount : Int, s.Unmodified id → amount = base := by
      intro _ unmodified
      rw [unmodified.penalty] at stored
      cases stored
    simp only [wp_rules]
    exact ⟨fun _ _ _ _ _ _ _ => ⟨trivial, modified _⟩, fun _ => ⟨trivial, fun _ => trivial⟩⟩
  · rw [wp_pure]
    exact ⟨rfl, fun _ => rfl⟩

theorem scaledBonus_readonly (config : VestingBonusConfig) (onTime : Bool) (base : Int) :
    (scaledBonus config onTime base).Readonly := by
  intro s
  simp [scaledBonus]

theorem allOnTime_readonly (now window : Nat) (unlockTimes : List Nat) :
    (allOnTime now window unlockTimes).Readonly := by
  induction unlockTimes with
  | nil =>
    intro s
    simp [allOnTime]
  | cons unlockTime rest ih =>
    intro s
    simp only [allOnTime, wp_rules]
    exact fun _ => ⟨fun _ => trivial, fun _ => ih.wp fun _ => rfl⟩

theorem settleClaim_settled (schedule : VestingSchedule) (amount : Int) (count : Nat) :
    (settleClaim env id vault schedule amount count).wp s fun _ t =>
      Settled id vault schedule amount count s t := by
  simp only [settleClaim, setSchedule, wp_rules]
  intro covered
  -- the payments are followed for two things: what they leave alone and what they add up to
  have paid : (payBeneficiaries env id vault amount).wp s fun _ t => 0 ≤ amount →
      (vault.beneficiaries.map (·.bps)).sum ≤ 10000 →
      t.paidFrom id = s.paidFrom id + amount := by
    intro a t outcome nonneg shares
    exact (payBeneficiaries_paid env id vault amount nonneg shares s a t outcome).paidFrom
  refine ((payBeneficiaries_disbursed env id vault amount s).and paid).mono ?_
  rintro _ t ⟨disbursed, paid⟩
  intro _
  refine ⟨covered, ?_, ?_, ?_, ?_, fun unmodified => ?_, paid⟩
  all_goals rw [disbursed.frame]
  · rfl
  · exact unmodified.congr rfl rfl rfl

theorem Settled.of_rollover {id : VaultId} {s t : State} {vault : Vault} {amount : Int}
    {count : Nat} {rollover : VaultId → Option VestingRolloverConfig}
    (settled : Settled id vault schedule amount count { s with vesting.rollover := rollover } t)
    (kept : s.Unmodified id → State.Unmodified { s with vesting.rollover := rollover } id) :
    Settled id vault schedule amount count s t :=
  ⟨settled.covered, settled.vaults, settled.schedule, settled.count, settled.pending,
    fun unmodified => settled.unmodified (kept unmodified), settled.paid⟩

/-! ### Claims that pay at once -/

/-- The installments up to `count` are unlocked, some of them are new, and `amount` is theirs. -/
def Advances (env : Env) (vault : Vault) (schedule : VestingSchedule) (amount : Int)
    (count : Nat) : Prop :=
  schedule.claimedInstallments < count ∧ count ≤ schedule.unlocked env.now ∧
    amount = claimAmount vault schedule count

/-- What the claims that pay at once have in common; the amount and the count depend on the options
of the vault. -/
def SettlesFirst (env : Env) (id : VaultId) (s t : State) : Prop :=
  ∃ vault schedule amount count, Claimable env id vault schedule s ∧
    schedule.startTime + schedule.cliffPeriod ≤ env.now ∧
    Settled id vault schedule amount count s t ∧
    (s.Unmodified id → Advances env vault schedule amount count)

variable {Q : Unit → State → Prop}

/-- **What is left of a claim after its checks**: to settle an amount up to some installment. Only
what was rolled over has been written before. -/
theorem claimVestedInstallment_wp
    (settle : ∀ vault schedule amount count rollover, Claimable env id vault schedule s →
      schedule.startTime + schedule.cliffPeriod ≤ env.now →
      (s.Unmodified id → State.Unmodified { s with vesting.rollover := rollover } id) →
      (s.Unmodified id → Advances env vault schedule amount count ∧
        count = schedule.unlocked env.now) →
      (settleClaim env id vault schedule amount count).wp
        { s with vesting.rollover := rollover } Q) :
    (claimVestedInstallment env id).wp s Q := by
  simp only [claimVestedInstallment, wp_rules, wp_loadClaimable]
  intro _ vault found released schedule stored remaining started
  refine (assertCliffReached_spec env s started).mono ?_
  rintro _ t ⟨rfl, cliff⟩
  refine (acceleratedInstallments_spec env id t started).mono ?_
  rintro unlocked t ⟨rfl, unlockedEq⟩
  intro something
  refine (baseAmount_spec t vault schedule unlocked).mono ?_
  rintro base t ⟨rfl, rfl⟩
  refine (takeRollover_spec id t _).mono ?_
  rintro rolled _ ⟨⟨rollover, rfl, kept⟩, rolledEq⟩
  refine (penalizedAmount_spec env id _ vault schedule unlocked _ rolled).mono ?_
  rintro amount _ ⟨rfl, amountEq⟩
  refine settle vault schedule amount unlocked rollover
    ⟨found, released, stored, remaining, started⟩ cliff kept fun unmodified => ⟨⟨?_, ?_, ?_⟩, ?_⟩
  · rcases something with new | rolledOver
    · omega
    · obtain ⟨config, member, pos⟩ := (Option.any_eq_true _ _).mp rolledOver
      simp [unmodified.rollover config member] at pos
  · exact (unlockedEq unmodified).le
  · rw [amountEq (kept unmodified), rolledEq unmodified]
  · exact unlockedEq unmodified

theorem claimVestedInstallment_settled :
    (claimVestedInstallment env id).wp s fun _ t => SettlesFirst env id s t := by
  refine claimVestedInstallment_wp env id s ?_
  intro vault schedule amount count rollover claimable cliff kept advances
  refine (settleClaim_settled env id _ vault schedule amount count).mono fun _ t settled => ?_
  exact ⟨vault, schedule, amount, count, claimable, cliff, settled.of_rollover kept,
    fun unmodified => (advances unmodified).1⟩

theorem claimCatchupVesting_wp
    (settle : ∀ vault schedule amount count, Claimable env id vault schedule s →
      schedule.startTime + schedule.cliffPeriod ≤ env.now → Advances env vault schedule amount count →
      (settleClaim env id vault schedule amount count).wp s Q) :
    (claimCatchupVesting env id).wp s Q := by
  simp only [claimCatchupVesting, wp_rules, wp_loadClaimable]
  intro _ vault found _ config _ _ released schedule stored remaining started
  refine (assertCliffReached_spec env s started).mono ?_
  rintro _ t ⟨rfl, cliff⟩
  refine (unlockedInstallments_spec env t started).mono ?_
  rintro unlocked t ⟨rfl, rfl⟩ something
  generalize claimableEq : (if 0 < config.maxCatchupInstallments then
      min (schedule.unlocked env.now - schedule.claimedInstallments) config.maxCatchupInstallments
    else schedule.unlocked env.now - schedule.claimedInstallments) = claimable
  have bounds : 0 < claimable ∧
      claimable ≤ schedule.unlocked env.now - schedule.claimedInstallments := by
    rw [← claimableEq]
    split <;> omega
  have added : claimable = schedule.claimedInstallments + claimable - schedule.claimedInstallments := by
    omega
  nth_rewrite 2 [added]
  refine (baseAmount_spec t vault schedule _).mono ?_
  rintro amount t ⟨rfl, rfl⟩
  refine settle vault schedule _ _ ⟨found, released, stored, remaining, started⟩ cliff ⟨?_, ?_, rfl⟩
  · omega
  · omega

theorem claimCatchupVesting_settled :
    (claimCatchupVesting env id).wp s fun _ t => SettlesFirst env id s t := by
  refine claimCatchupVesting_wp env id s ?_
  intro vault schedule amount count claimable cliff advances
  refine (settleClaim_settled env id s vault schedule amount count).mono fun _ t settled => ?_
  exact ⟨vault, schedule, amount, count, claimable, cliff, settled, fun _ => advances⟩

theorem claimWithBonus_wp
    (settle : ∀ vault schedule amount count, Claimable env id vault schedule s →
      schedule.startTime + schedule.cliffPeriod ≤ env.now →
      (settleClaim env id vault schedule amount count).wp s Q) :
    (claimWithBonus env id).wp s Q := by
  simp only [claimWithBonus, wp_rules, wp_loadClaimable]
  intro _ vault found _ config _ released schedule stored remaining started
  refine (assertCliffReached_spec env s started).mono ?_
  rintro _ t ⟨rfl, cliff⟩
  refine (unlockedInstallments_spec env t started).mono ?_
  rintro unlocked t ⟨rfl, rfl⟩ _
  refine (baseAmount_spec t vault schedule _).mono ?_
  rintro base t ⟨rfl, rfl⟩
  refine (allOnTime_readonly env.now _ _).wp fun onTime => ?_
  refine (scaledBonus_readonly config onTime _).wp fun scaled => ?_
  exact fun _ => settle vault schedule _ _ ⟨found, released, stored, remaining, started⟩ cliff

theorem claimWithBonus_settled :
    (claimWithBonus env id).wp s fun _ t => ∃ vault schedule amount count,
      Claimable env id vault schedule s ∧
      schedule.startTime + schedule.cliffPeriod ≤ env.now ∧
      Settled id vault schedule amount count s t := by
  refine claimWithBonus_wp env id s fun vault schedule amount count claimable cliff => ?_
  refine (settleClaim_settled env id s vault schedule amount count).mono fun _ t settled => ?_
  exact ⟨vault, schedule, amount, count, claimable, cliff, settled⟩

/-! ### Claims with a reversal window -/

def pendingClaimOf (env : Env) (vault : Vault) (schedule : VestingSchedule) (window : Nat) :
    VestingPendingClaim where
  amount := claimAmount vault schedule (schedule.unlocked env.now)
  beneficiary := (vault.beneficiaries.head?.map (·.address)).getD vault.beneficiary
  initiatedAt := env.now
  reversalDeadline := env.now + window
  newInstallmentsClaimed := schedule.unlocked env.now
  prevInstallmentsClaimed := schedule.claimedInstallments

theorem initiateVestingClaim_reserves (window : Nat) :
    (initiateVestingClaim env id window).wp s fun _ t => ∃ vault schedule,
      Claimable env id vault schedule s ∧ s.vesting.pendingClaim id 0 = none ∧
      schedule.claimedInstallments < schedule.unlocked env.now ∧
      t = { s with
        vesting.schedule :=
          s.vesting.withFirst id (some (schedule.claimedUpTo (schedule.unlocked env.now)))
        vesting.pendingClaim :=
          s.vesting.withPending id (some (pendingClaimOf env vault schedule window)) } := by
  simp only [initiateVestingClaim, setSchedule, setPendingClaim, wp_rules, wp_loadClaimable]
  intro _ _ free vault found released schedule stored remaining started
  refine (unlockedInstallments_spec env s started).mono ?_
  rintro unlocked t ⟨rfl, rfl⟩ something
  refine (baseAmount_spec t vault schedule _).mono ?_
  rintro amount t ⟨rfl, rfl⟩
  intro _
  refine ⟨vault, schedule, ⟨found, released, stored, remaining, started⟩,
    Option.isNone_iff_eq_none.mp free, ?_, rfl⟩
  omega

theorem reverseVestingClaim_restores (caller : Address) :
    (reverseVestingClaim env id caller).wp s fun _ t => ∃ pending,
      s.vesting.pendingClaim id 0 = some pending ∧
      t = { s with
        vesting.schedule := s.vesting.withFirst id
          ((s.vesting.schedule id 0).map (·.claimedUpTo pending.prevInstallmentsClaimed))
        vesting.pendingClaim := s.vesting.withPending id none } := by
  simp only [reverseVestingClaim, setSchedule, setPendingClaim, wp_rules]
  intro _ vault _ _ pending stored _
  exact ⟨pending, stored, rfl⟩

theorem finalizeVestingClaim_pays :
    (finalizeVestingClaim env id).wp s fun _ t => ∃ vault pending,
      s.vaults id = some vault ∧ s.vesting.pendingClaim id 0 = some pending ∧
      pending.reversalDeadline < env.now ∧ pending.amount ≤ vault.balance ∧
      t.vaults = update s.vaults id
        (some { vault with balance := vault.balance - pending.amount }) ∧
      t.vesting = { s.vesting with pendingClaim := s.vesting.withPending id none } ∧
      t.paidFrom id = s.paidFrom id + pending.amount := by
  simp only [finalizeVestingClaim, setPendingClaim, wp_rules]
  intro _ pending stored closed vault found covered _ ledger _ _
  exact ⟨vault, pending, found, stored, closed, covered, rfl, rfl,
    paidFrom_payOut id _ _ _ s ledger⟩

end Claims

end EthosContracts.TtlVault
