/-
**The outcomes of the vesting calls.**

* `finalizeVestingClaim`, `cancelVestingSchedule` and `distributeYield` take the vault in any
  status. The first needs money in it; the second writes a balance that nothing backs; the third
  does nothing as long as nothing is staked.
-/

import EthosContracts.TtlVault.Claims
import EthosContracts.TtlVault.Outcome

namespace EthosContracts.TtlVault

open Lib

section Vesting

variable (env : Env) (s : State) (vaultId : VaultId) (caller : Address)
variable (vault : Vault) (schedule : VestingSchedule)

/-! ### The parts of a claim -/

theorem unlockedInstallments_readonly (startTime interval numInstallments : Nat) :
    (unlockedInstallments env startTime interval numInstallments).Readonly := by
  intro s
  simp [unlockedInstallments]

/-! ### What a claim does -/

/-- A claim of a released vault pays the beneficiaries on record out of the balance; of the rest it
writes only the records of the vesting. -/
structure Claimed (id : VaultId) (v : Vault) (s t : State) : Prop where
  found : s.vaults id = some v
  released : v.status = .released
  saved : ∃ balance, t.vaults = Function.update s.vaults id (some { v with balance := balance })
  count : t.vaultCount = s.vaultCount
  registry : t.registry = s.registry
  books : t.books = s.books
  compliance : t.compliance = s.compliance
  waiting : t.withdrawals = s.withdrawals
  answers : t.beneficiaries = s.beneficiaries
  paid : ∃ new, t.payouts = s.payouts ++ new ∧ ∀ payout ∈ new, payout.vaultId = id ∧
    (payout.payee = v.beneficiary ∨ ∃ entry ∈ v.beneficiaries, entry.address = payout.payee)

variable {call : Call} {id : VaultId} {v : Vault} {t : State}

theorem Claimed.effect {env : Env} {s : State}
    (claimed : Claimed id v s t) : Effect env call s t := by
  obtain ⟨balance, vaults⟩ := claimed.saved
  obtain ⟨new, payouts, allowed⟩ := claimed.paid
  refine .of_update claimed.found vaults claimed.count claimed.registry payouts ?_
    (.of_released claimed.released rfl rfl rfl ⟨rfl, .inl rfl⟩)
  intro payout member
  obtain ⟨same, payee⟩ := allowed payout member
  unfold Paid
  rw [same]
  refine ⟨v, claimed.found, .inr (.inr ?_)⟩
  rcases payee with primary | ⟨entry, listed, address⟩
  · rw [primary]
    exact .beneficiary
  · rw [← address]
    exact .listed listed

theorem Claimed.outcome {env : Env} {s : State}
    (claimed : Claimed id v s t) (claims : call.vests = true ∨ t.claimBooks = s.claimBooks) :
    Outcome env call s t := by
  refine ⟨fun _ => claimed.effect, .of_unchanged ?_, ?_⟩
  · obtain ⟨balance, vaults⟩ := claimed.saved
    exact .of_save claimed.found vaults rfl claimed.books
  · rw [State.sideBooks, claimed.compliance, claimed.waiting, claimed.answers]
    rcases claims with vests | same
    · rw [State.sideBooks, if_pos vests, if_pos vests]
    · rw [State.sideBooks, same]

theorem settleClaim_outcome {s : State}
    (claimable : Claimable env vaultId v schedule s) (vests : call.vests = true) (amount : Int)
    (claimed : Nat) (rollover : VaultId → Option VestingRolloverConfig) :
    (settleClaim env vaultId v schedule amount claimed).wp { s with vesting.rollover := rollover }
      fun _ t => Outcome env call s t := by
  simp only [settleClaim, setSchedule, wp_rules]
  intro _
  refine (payBeneficiaries_disbursed env vaultId v amount _).mono ?_
  intro _ t disbursed _
  rw [disbursed.frame]
  exact Claimed.outcome ⟨claimable.found, claimable.released, ⟨_, rfl⟩, rfl, rfl, rfl, rfl, rfl, rfl,
    disbursed.paid⟩ (.inl vests)

/-! ### Claims on the first schedule -/

@[simp]
theorem claimVestedInstallment_outcome : HasOutcome env s (.claimVestedInstallment vaultId) := by
  refine claimVestedInstallment_wp env vaultId s
    fun vault schedule amount count rollover claimable => ?_
  exact fun _ _ _ => settleClaim_outcome env vaultId schedule claimable rfl amount count rollover

@[simp] theorem claimCatchupVesting_outcome : HasOutcome env s (.claimCatchupVesting vaultId) := by
  refine claimCatchupVesting_wp env vaultId s fun vault schedule amount count claimable _ _ => ?_
  exact settleClaim_outcome env vaultId schedule claimable rfl amount count _

@[simp] theorem claimWithBonus_outcome : HasOutcome env s (.claimWithBonus vaultId) := by
  refine claimWithBonus_wp env vaultId s fun vault schedule amount count claimable _ => ?_
  exact settleClaim_outcome env vaultId schedule claimable rfl amount count _

@[simp]
theorem finalizeVestingClaim_outcome : HasOutcome env s (.finalizeVestingClaim vaultId) := by
  simp only [HasOutcome, exec.eq_def, finalizeVestingClaim, setPendingClaim, wp_rules]
  intro _ pending stored _ v found enough _ _ moved _
  refine ⟨fun _ => .of_payment found rfl rfl rfl rfl (.inr (.inr (.pendingClaim stored)))
    (.of_balance rfl rfl rfl ⟨rfl, .inl rfl⟩ fun _ zero => .inl ?_),
    .of_unchanged (.of_save found rfl rfl rfl), rfl⟩
  have nonneg : 0 ≤ pending.amount := (Ledger.transfer_eq_some.mp moved).1.1
  show v.balance - pending.amount = 0
  omega

@[simp] theorem cancelVestingSchedule_outcome (scheduleId : Nat) :
    HasOutcome env s (.cancelVestingSchedule vaultId scheduleId caller) := by
  simp only [HasOutcome, exec.eq_def, cancelVestingSchedule, setSchedule, wp_rules]
  intro _ v found _ schedule stored _ _
  refine ⟨fun _ => .of_save found rfl rfl rfl rfl
    (.of_balance rfl rfl rfl ⟨rfl, .inl rfl⟩ fun _ zero => ?_),
    .of_unchanged (.of_save found rfl rfl rfl), rfl⟩
  by_cases nothing : schedule.unclaimed = 0
  · left
    show saturateI128 (v.balance + saturateI128 schedule.unclaimed) = 0
    rw [zero, nothing]
    rfl
  · exact .inr ⟨rfl, schedule, stored, nothing⟩

/-! ### Clawback -/

theorem sumUnvested_readonly (schedules : List VestingSchedule) : ∀ total,
    (sumUnvested schedules total).Readonly := by
  induction schedules with
  | nil =>
    intro total s
    simp [sumUnvested]
  | cons schedule rest ih =>
    intro total s
    simp only [sumUnvested, wp_rules]
    exact fun _ => ⟨fun _ _ _ _ => ih _ s, fun _ => ih total s⟩

@[simp] theorem clawbackUnvested_outcome : HasOutcome env s (.clawbackUnvested vaultId caller) := by
  simp only [HasOutcome, exec.eq_def, clawbackUnvested, wp_rules]
  intro _ _ v found _ released _
  refine (sumUnvested_readonly _ 0).wp fun unvested => ?_
  intros
  exact ⟨fun _ => .of_payment found rfl rfl rfl rfl (.inr (.inl (.inr (.inr (.inr ⟨caller, rfl⟩)))))
    (.of_released released rfl rfl rfl ⟨rfl, .inl rfl⟩),
    .of_unchanged (.of_save found rfl rfl rfl), rfl⟩

/-! ### Milestones, stagger entries, schedules of one beneficiary -/

theorem sumMilestones_readonly (totalAmount claimedAmount : Int)
    (milestones : List MilestoneEntry) :
    ∀ total, (sumMilestones totalAmount claimedAmount milestones total).Readonly := by
  induction milestones with
  | nil =>
    intro total s
    simp [sumMilestones]
  | cons milestone rest ih =>
    intro total s
    simp only [sumMilestones, wp_rules]
    exact ⟨fun _ => ⟨fun _ _ _ _ => ih _ s, fun _ _ _ => ih _ s⟩, fun _ => ih total s⟩

@[simp] theorem claimMilestoneInstallments_outcome :
    HasOutcome env s (.claimMilestoneInstallments vaultId) := by
  simp only [HasOutcome, exec.eq_def, claimMilestoneInstallments, loadMilestones, setMilestones,
    wp_rules]
  intro _ v found released schedule _ _
  refine (sumMilestones_readonly _ _ schedule.milestones 0).wp fun amount => ?_
  intro _ _
  refine (payBeneficiaries_disbursed env vaultId v amount s).mono ?_
  intro _ t disbursed _ _
  rw [disbursed.frame]
  exact Claimed.outcome ⟨found, released, ⟨_, rfl⟩, rfl, rfl, rfl, rfl, rfl, rfl, disbursed.paid⟩
    (.inr rfl)

theorem staggerShare_readonly (entry : VestingStaggerEntry) (balance : Int) :
    (staggerShare env entry balance).Readonly := by
  intro s
  simp only [staggerShare, wp_rules]
  refine ⟨fun _ => trivial, fun _ => (unlockedInstallments_readonly env _ _ _).wp fun _ => ?_⟩
  exact ⟨fun _ => rfl, fun _ _ => ⟨fun _ => rfl, fun _ _ => rfl⟩⟩

theorem claimStaggers_disbursed (token : Address) (entries : List VestingStaggerEntry) :
    ∀ (balance total : Int) (s : State),
    (claimStaggers env vaultId token caller entries balance total).wp s fun _ t =>
      Disbursed vaultId (· = caller) s t := by
  induction entries with
  | nil =>
    intro balance total s
    rw [claimStaggers, wp_pure]
    exact .refl
  | cons entry rest ih =>
    intro balance total s
    simp only [claimStaggers, wp_rules]
    refine ⟨fun _ => (staggerShare_readonly env entry balance).wp fun share => ?_, fun _ => ?_⟩
    · refine ⟨fun _ _ _ _ _ _ => ?_, fun _ => ih balance total s⟩
      refine (ih _ _ _).mono fun _ t later => ?_
      refine .trans ?_ later
      exact .single rfl
    · exact ih balance total s

@[simp] theorem claimStaggeredVesting_outcome :
    HasOutcome env s (.claimStaggeredVesting vaultId caller) := by
  simp only [HasOutcome, exec.eq_def, claimStaggeredVesting, wp_rules]
  intro _ _ v found released entries stored
  refine (claimStaggers_disbursed env vaultId caller v.tokenAddress entries v.balance 0 s).mono ?_
  rintro result t disbursed ⟨entry, member, rfl⟩ _
  rw [disbursed.frame]
  refine .of_disbursed found rfl rfl rfl disbursed rfl rfl ?_
    (.of_released released rfl rfl rfl ⟨rfl, .inl rfl⟩)
  rintro _ rfl
  exact .inr (.inr (.stagger stored member))

@[simp] theorem claimBeneficiaryVesting_outcome (beneficiary : Address) :
    HasOutcome env s (.claimBeneficiaryVesting vaultId beneficiary) := by
  simp only [HasOutcome, exec.eq_def, claimBeneficiaryVesting, setBeneficiarySchedule, wp_rules]
  intro v found released schedule stored _ _
  refine (unlockedInstallments_readonly env _ _ _).wp fun available => ?_
  intros
  exact .of_payment found rfl rfl rfl rfl (.inr (.inr (.schedule stored)))
    (.of_released released rfl rfl rfl ⟨rfl, .inl rfl⟩)

/-! ### Yield -/

theorem yieldAmount_of_unstaked {staking : TokenStaking} (config : YieldDistributionConfig)
    (zero : staking.stakedAmount = 0) : yieldAmount env staking config = 0 := by
  simp only [yieldAmount, zero, Int.zero_mul, scaleOrZero, Int.zero_tdiv, ite_self]

@[simp] theorem distributeYield_outcome : HasOutcome env s (.distributeYield vaultId) := by
  simp only [HasOutcome, exec.eq_def, distributeYield, setYieldConfig, wp_rules]
  intro v found _ staking stored config _ _
  have nothing : s.Regular → yieldAmount env staking config ≤ 0 := by
    intro regular
    rw [yieldAmount_of_unstaked env config (regular.unstaked vaultId staking stored)]
  refine ⟨fun _ => .of_frame rfl rfl rfl, fun some => ⟨fun _ _ _ _ => ?_, fun _ => ?_⟩⟩
  all_goals
    exact ⟨fun regular => absurd (nothing regular) some,
    .of_unchanged (.of_save found rfl rfl rfl), rfl⟩

end Vesting

end EthosContracts.TtlVault
