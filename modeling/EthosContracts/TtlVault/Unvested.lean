/-
**What is still unvested**, as four calls compute it.

The view takes the claimed installments off the total, the clawback adds up the remaining ones; a
cancellation and a forfeiture compute like the view and leave the schedule's money, or its counter,
as it was.
-/

import EthosContracts.TtlVault.Finality
import EthosContracts.TtlVault.Isolation

namespace EthosContracts.TtlVault

open Lib Function List

/-! ### The view -/

def sumUnclaimed : List VestingSchedule → Int → Contract Int
  | [], total => pure total
  | schedule :: rest, total => do
    let perInstallment ← i128Div schedule.totalAmount schedule.numInstallments
    let claimed ← i128 (perInstallment * schedule.claimedInstallments)
    sumUnclaimed rest (saturateI128 (total + saturateI128 (schedule.totalAmount - claimed)))

def getTotalUnvestedAmount (id : VaultId) : Contract Int := do
  let schedules ← read (storedSchedules · id)
  sumUnclaimed schedules 0

/-! ### One schedule -/

namespace VestingSchedule

/-- A schedule that `set_vesting_schedule` accepts, with any number of its installments claimed. -/
structure Accepted (schedule : VestingSchedule) : Prop where
  installments : 0 < schedule.numInstallments
  pos : 0 < schedule.totalAmount
  fits : schedule.totalAmount ≤ maxI128
  claimed : schedule.claimedInstallments ≤ schedule.numInstallments

/-- What the division into installments leaves over. -/
def remainder (schedule : VestingSchedule) : Int := schedule.totalAmount.tmod schedule.numInstallments

def remaining (schedule : VestingSchedule) : Int :=
  schedule.perInstallment * ((schedule.numInstallments - schedule.claimedInstallments : Nat) : Int)

def complete (schedule : VestingSchedule) : VestingSchedule :=
  schedule.claimedUpTo schedule.numInstallments

variable {schedule : VestingSchedule}

theorem total_eq (schedule : VestingSchedule) : schedule.totalAmount =
    schedule.perInstallment * schedule.numInstallments + schedule.remainder :=
  (Int.tdiv_mul_add_tmod ..).symm

theorem remainder_eq_zero_iff :
    schedule.remainder = 0 ↔ (schedule.numInstallments : Int) ∣ schedule.totalAmount :=
  Int.dvd_iff_tmod_eq_zero.symm

namespace Accepted

variable (accepted : schedule.Accepted)
include accepted

theorem complete : schedule.complete.Accepted :=
  ⟨accepted.installments, accepted.pos, accepted.fits, le_refl _⟩

theorem remainder_nonneg : 0 ≤ schedule.remainder := Int.tmod_nonneg _ accepted.pos.le

theorem perInstallment_nonneg : 0 ≤ schedule.perInstallment :=
  Int.tdiv_nonneg accepted.pos.le (Int.natCast_nonneg _)

theorem remaining_nonneg : 0 ≤ schedule.remaining :=
  Int.mul_nonneg accepted.perInstallment_nonneg (Int.natCast_nonneg _)

theorem unclaimed_eq : schedule.unclaimed = schedule.remaining + schedule.remainder := by
  have total := total_eq schedule
  rw [unclaimed, remaining, Nat.cast_sub accepted.claimed, Int.mul_sub, ← perInstallment]
  omega

theorem unclaimed_nonneg : 0 ≤ schedule.unclaimed := by
  have remaining := accepted.remaining_nonneg
  have remainder := accepted.remainder_nonneg
  rw [accepted.unclaimed_eq]
  omega

theorem unclaimed_complete : schedule.complete.unclaimed = schedule.remainder := by
  have none : schedule.complete.remaining = 0 := by
    rw [remaining, VestingSchedule.complete, claimedUpTo, Nat.sub_self, Nat.cast_zero, Int.mul_zero]
  rw [accepted.complete.unclaimed_eq, none, Int.zero_add]
  rfl

theorem claimed_fits : InI128 (schedule.perInstallment * schedule.claimedInstallments) := by
  have part : 0 ≤ schedule.perInstallment * schedule.claimedInstallments :=
    Int.mul_nonneg accepted.perInstallment_nonneg (Int.natCast_nonneg _)
  have rest := accepted.unclaimed_nonneg
  have fits := accepted.fits
  rw [unclaimed, ← perInstallment] at rest
  unfold InI128 maxI128 at *
  omega

theorem unclaimed_eq_zero_iff : schedule.unclaimed = 0 ↔
    schedule.claimedInstallments = schedule.numInstallments ∧
      (schedule.numInstallments : Int) ∣ schedule.totalAmount := by
  have remaining := accepted.remaining_nonneg
  have remainder := accepted.remainder_nonneg
  rw [← remainder_eq_zero_iff, accepted.unclaimed_eq]
  constructor
  · intro none
    have whole : schedule.remainder = 0 := by omega
    refine ⟨?_, whole⟩
    have total := total_eq schedule
    have pos := accepted.pos
    have claimed := accepted.claimed
    have open_ : schedule.remaining = 0 := by omega
    rcases Int.mul_eq_zero.mp open_ with nothing | all
    · rw [nothing, Int.zero_mul] at total
      omega
    · omega
  · rintro ⟨all, whole⟩
    rw [whole, VestingSchedule.remaining, all, Nat.sub_self, Nat.cast_zero, Int.mul_zero]
    rfl

end Accepted

end VestingSchedule

/-! ### All schedules -/

section Sums

variable {schedules : List VestingSchedule} {s : State}

section

variable (accepted : ∀ schedule ∈ schedules, schedule.Accepted)
include accepted

theorem sum_unclaimed_nonneg : 0 ≤ (schedules.map (·.unclaimed)).sum := by
  refine List.sum_nonneg fun value member => ?_
  obtain ⟨schedule, listed, rfl⟩ := mem_map.mp member
  exact (accepted schedule listed).unclaimed_nonneg

theorem sumUnclaimed_eq : ∀ total : Int,
    0 ≤ total → total ≤ maxI128 → (sumUnclaimed schedules total).succeeds s fun sum _ =>
      sum = min (total + (schedules.map (·.unclaimed)).sum) maxI128 := by
  induction schedules with
  | nil =>
    intro total _ fits
    simpa [sumUnclaimed] using fits
  | cons schedule rest ih =>
    intro total nonneg fits
    have head := accepted schedule mem_cons_self
    have accepted := (forall_mem_cons.mp accepted).2
    have unclaimed := head.unclaimed_nonneg
    have others := sum_unclaimed_nonneg accepted
    simp only [sumUnclaimed, succeeds_rules]
    refine ⟨by have := head.installments; omega, head.claimed_fits, ?_⟩
    have added : saturateI128 (total + saturateI128 schedule.unclaimed) =
        min (total + schedule.unclaimed) maxI128 := by
      unfold saturateI128 maxI128
      omega
    show (sumUnclaimed rest (saturateI128 (total + saturateI128 schedule.unclaimed))).succeeds s _
    rw [added]
    refine (ih accepted _ (by unfold maxI128 at *; omega) (min_le_right ..)).mono ?_
    rintro sum _ rfl
    rw [map_cons, sum_cons]
    omega

theorem sum_unclaimed_eq :
    (schedules.map (·.unclaimed)).sum =
      (schedules.map (·.remaining)).sum + (schedules.map (·.remainder)).sum := by
  rw [← sum_map_add]
  exact congrArg List.sum (map_congr_left fun schedule member =>
    (accepted schedule member).unclaimed_eq)

theorem sum_unclaimed_complete :
    ((schedules.map (·.complete)).map (·.unclaimed)).sum = (schedules.map (·.remainder)).sum := by
  rw [map_map]
  exact congrArg List.sum (map_congr_left fun schedule member =>
    (accepted schedule member).unclaimed_complete)

theorem sum_remainder_eq_zero_iff :
    (schedules.map (·.remainder)).sum = 0 ↔ ∀ schedule ∈ schedules,
      (schedule.numInstallments : Int) ∣ schedule.totalAmount := by
  have nonneg : ∀ value ∈ schedules.map (·.remainder), 0 ≤ value := by
    intro value member
    obtain ⟨schedule, listed, rfl⟩ := mem_map.mp member
    exact (accepted schedule listed).remainder_nonneg
  simp only [← VestingSchedule.remainder_eq_zero_iff]
  constructor
  · intro none schedule member
    have le := single_le_sum nonneg _ (mem_map_of_mem member)
    have ge := (accepted schedule member).remainder_nonneg
    omega
  · intro whole
    exact sum_eq_zero (forall_mem_map.mpr whole)

end

theorem getTotalUnvestedAmount_eq {id : VaultId}
    (accepted : ∀ schedule ∈ storedSchedules s id, schedule.Accepted) :
    (getTotalUnvestedAmount id).succeeds s fun sum _ =>
      sum = min ((storedSchedules s id).map (·.unclaimed)).sum maxI128 := by
  simp only [getTotalUnvestedAmount, succeeds_bind, succeeds_read]
  refine (sumUnclaimed_eq accepted 0 (le_refl _) (by decide)).mono ?_
  rintro sum _ rfl
  rw [Int.zero_add]

theorem sumUnvested_eq (schedules : List VestingSchedule) : ∀ (total : Int) (s : State),
    (sumUnvested schedules total).wp s fun sum t =>
      t = s ∧ sum = total + (schedules.map (·.remaining)).sum ∧ (InI128 total → InI128 sum) := by
  induction schedules with
  | nil =>
    intro total s
    simp [sumUnvested]
  | cons schedule rest ih =>
    intro total s
    simp only [sumUnvested, wp_rules, map_cons, sum_cons]
    refine fun _ => ⟨fun _ _ _ fits => (ih _ s).mono ?_, fun none => (ih total s).mono ?_⟩
    · rintro sum t ⟨same, rfl, kept⟩
      exact ⟨same, Int.add_assoc .., fun _ => kept fits⟩
    · rintro sum t ⟨same, rfl, kept⟩
      have nothing : schedule.remaining = 0 := by
        rw [VestingSchedule.remaining, Nat.eq_zero_of_not_pos none, Nat.cast_zero, Int.mul_zero]
      exact ⟨same, by omega, kept⟩

end Sums

section Clawback

variable (env : Env) (id : VaultId) (s : State)

theorem clawbackUnvested_pays (caller : Address) :
    (clawbackUnvested env id caller).wp s fun _ t => ∃ vault amount,
      s.vaults id = some vault ∧ amount = ((storedSchedules s id).map (·.remaining)).sum ∧
      amount ≠ 0 ∧ amount ≤ vault.balance ∧ InI128 amount ∧
      t.vaults id = some { vault with balance := vault.balance - amount } ∧
      t.paidTo id vault.owner = s.paidTo id vault.owner + amount ∧
      storedSchedules t id = (storedSchedules s id).map (·.complete) := by
  simp only [clawbackUnvested, wp_rules]
  intro _ _ vault found _ _ _
  refine (sumUnvested_eq (storedSchedules s id) 0 s).mono ?_
  rintro amount t ⟨rfl, sum, fits⟩
  intro something enough after moved _
  rw [Int.zero_add] at sum
  refine ⟨vault, amount, found, sum, something, enough, fits (by decide), update_self .., ?_, ?_⟩
  · exact (paidTo_payOut id _ _ _ t after vault.owner).trans (by rw [if_pos rfl])
  · simp only [storedSchedules, update_self, map_filterMap]
    refine filterMap_congr fun index member => ?_
    rw [if_pos (mem_range.mp member)]
    rfl

variable {env id s}

/-- **All code agrees on what is unvested**, for a clawback from `s` to `t`: it returns to the owner
what the view says, and leaves nothing of it. -/
structure UnvestedAgrees (id : VaultId) (vault : Vault) (s t : State) : Prop where
  returned : (getTotalUnvestedAmount id).succeeds s fun unvested _ =>
    t.paidTo id vault.owner = s.paidTo id vault.owner + unvested ∧
      (unvested = vault.balance → t.balance id = 0)
  nothing : (getTotalUnvestedAmount id).succeeds t fun unvested _ => unvested = 0

/-- **The remainders decide.** -/
theorem unvestedAgrees_iff {t : State} {caller : Address} {vault : Vault}
    (found : s.vaults id = some vault)
    (accepted : ∀ schedule ∈ storedSchedules s id, schedule.Accepted)
    (clawed : clawbackUnvested env id caller s = .ok ((), t)) :
    UnvestedAgrees id vault s t ↔ ∀ schedule ∈ storedSchedules s id,
      (schedule.numInstallments : Int) ∣ schedule.totalAmount := by
  obtain ⟨_, amount, found', sum, _, _, fits, left, paid, completed⟩ :=
    clawbackUnvested_pays env id s caller _ _ clawed
  cases found.symm.trans found'
  have settled : ∀ schedule ∈ storedSchedules t id, schedule.Accepted := by
    rw [completed]
    exact forall_mem_map.mpr fun schedule member => (accepted schedule member).complete
  have before := getTotalUnvestedAmount_eq accepted
  have after := getTotalUnvestedAmount_eq settled
  rw [sum_unclaimed_eq accepted, ← sum] at before
  rw [completed, sum_unclaimed_complete accepted] at after
  rw [← sum_remainder_eq_zero_iff accepted]
  generalize (storedSchedules s id |>.map (·.remainder)).sum = remainders at before after ⊢
  constructor
  · intro agrees
    obtain ⟨_, _, ran, zero⟩ := agrees.nothing
    obtain ⟨_, _, ran', value⟩ := after
    cases ran.symm.trans ran'
    unfold maxI128 at value
    omega
  · rintro rfl
    refine ⟨before.mono ?_, after.mono ?_⟩
    · rintro _ _ rfl
      rw [Int.add_zero, min_eq_left fits.2]
      refine ⟨paid, fun whole => ?_⟩
      rw [State.balance, left, whole]
      exact Int.sub_self _
    · rintro _ _ rfl
      rfl

end Clawback

deriving instance DecidableEq for VestingSchedule, VestingForfeitureConfig

def vested (installments : Nat) (calls : Scenario) : State :=
  (played (hundredOpened ++
    (1002, ⟨3⟩, .record (.setVestingSchedule 1 ⟨3⟩ 1100 500 installments 100 0)) :: calls)).2

theorem unvestedAgrees_quarters :
    let s := vested 4 [(2000, ⟨3⟩, .triggerRelease 1)]
    UnvestedAgrees 1 { hundred with status := .released } s
      ((clawbackUnvested (plainEnv 2001 [⟨3⟩]) 1 ⟨3⟩).after s) := by
  intro s
  have stored : storedSchedules s 1 = [⟨1100, 500, 4, 0, 100, 0⟩] := by decide +kernel
  have ok : (clawbackUnvested (plainEnv 2001 [⟨3⟩]) 1 ⟨3⟩ s).isOk = true := by decide +kernel
  refine (unvestedAgrees_iff rfl ?_ (Tx.eq_ok_after ok)).mpr ?_ <;> rw [stored]
  · exact forall_mem_singleton.mpr ⟨by decide, by decide, by decide, by decide⟩
  · exact forall_mem_singleton.mpr (by decide)

/-- Of 100 in three installments, 99 are returned. -/
theorem clawback_leaves_remainder :
    let s := vested 3 [(2000, ⟨3⟩, .triggerRelease 1)]
    let t := (clawbackUnvested (plainEnv 2001 [⟨3⟩]) 1 ⟨3⟩).after s
    (getTotalUnvestedAmount 1 s).toOption.map Prod.fst = some 100 ∧ t.paidTo 1 ⟨3⟩ = 99 ∧
      (getTotalUnvestedAmount 1 t).toOption.map Prod.fst = some 1 ∧ t.balance 1 = 1 ∧
      ¬ UnvestedAgrees 1 { hundred with status := .released } s t := by
  intro s t
  have left : (getTotalUnvestedAmount 1 t).toOption.map Prod.fst = some 1 := by decide +kernel
  refine ⟨by decide +kernel, by decide +kernel, left, by decide +kernel, fun agrees => ?_⟩
  obtain ⟨_, _, ran, zero⟩ := agrees.nothing
  rw [ran, zero] at left
  cases left

section Cancellation

variable {env : Env} {id : VaultId} {s t : State} {vault : Vault} {schedule : VestingSchedule}

theorem cancelVestingSchedule_credits (scheduleId : Nat) (caller : Address)
    (found : s.vaults id = some vault)
    (stored : s.vesting.schedule id scheduleId = some schedule) :
    (cancelVestingSchedule env id scheduleId caller).wp s fun _ t =>
      t.balance id = saturateI128 (vault.balance + saturateI128 schedule.unclaimed) := by
  simp only [cancelVestingSchedule, setSchedule, wp_rules]
  intro _ _ found' _ _ stored' _ _
  cases found.symm.trans found'
  cases stored.symm.trans stored'
  simp only [State.balance, update_self]
  rfl

/-- **A cancellation is neutral exactly if nothing was unclaimed**, up to the largest balance. -/
theorem cancel_neutral_iff {scheduleId : Nat} {caller : Address}
    (found : s.vaults id = some vault) (fits : InI128 vault.balance)
    (stored : s.vesting.schedule id scheduleId = some schedule) (accepted : schedule.Accepted)
    (cancelled : cancelVestingSchedule env id scheduleId caller s = .ok ((), t)) :
    t.balance id = s.balance id ↔
      schedule.claimedInstallments = schedule.numInstallments ∧
        (schedule.numInstallments : Int) ∣ schedule.totalAmount ∨ vault.balance = maxI128 := by
  have credited := cancelVestingSchedule_credits scheduleId caller found stored _ _ cancelled
  have nonneg := accepted.unclaimed_nonneg
  rw [← accepted.unclaimed_eq_zero_iff, credited, State.balance, found]
  show _ = vault.balance ↔ _
  unfold saturateI128 InI128 maxI128 at *
  omega

theorem cancel_neutral_claimed :
    let s := vested 4 [(2000, ⟨3⟩, .triggerRelease 1), (3000, ⟨4⟩, .claimVestedInstallment 1)]
    ((cancelVestingSchedule (plainEnv 3001 [⟨3⟩]) 1 0 ⟨3⟩).after s).balance 1 = s.balance 1 := by
  intro s
  have found : s.vaults 1 = some { hundred with status := .released, balance := 0 } := rfl
  have stored : s.vesting.schedule 1 0 = some ⟨1100, 500, 4, 4, 100, 0⟩ := by decide +kernel
  refine (cancel_neutral_iff found (by decide) stored
    ⟨by decide, by decide, by decide, by decide⟩ (Tx.eq_ok_after (by decide +kernel))).mpr ?_
  exact .inl ⟨rfl, by decide⟩

/-- A schedule of 100 that is attached and cancelled turns a balance of 100 into 200, and a second
one turns it into 300. -/
theorem attach_and_cancel_grows :
    (vested 3 []).balance 1 = 100 ∧
      (vested 3 [(1003, ⟨3⟩, .cancelVestingSchedule 1 0 ⟨3⟩)]).balance 1 = 200 ∧
      (vested 3 [(1003, ⟨3⟩, .cancelVestingSchedule 1 0 ⟨3⟩),
        (1004, ⟨3⟩, .record (.setVestingSchedule 1 ⟨3⟩ 1100 500 3 100 0)),
        (1005, ⟨3⟩, .cancelVestingSchedule 1 1 ⟨3⟩)]).balance 1 = 300 := by
  decide +kernel

/-! ### Forfeiture -/

/-- Installments of the first schedule are claimed, or it is cancelled and credited to the vault. -/
def TakesAgain (id : VaultId) (event : VaultEvent) : Prop :=
  ∃ before ∈ event.before.vesting.schedule id 0,
    (∃ after ∈ event.after.vesting.schedule id 0,
      before.claimedInstallments < after.claimedInstallments) ∨
    event.after.vesting.schedule id 0 = none ∧ event.before.balance id < event.after.balance id

/-- **A forfeiture settles the schedule**: the balance covered it, and no later event takes what was
forfeited again. -/
structure ForfeitureSettles (host : Host) (id : VaultId) (vault : Vault) (forfeited : Int)
    (t : State) : Prop where
  covered : forfeited ≤ vault.balance
  final : 0 < forfeited → ∀ history u, ContractRun host t history u →
    ∀ event ∈ history, ¬ TakesAgain id event

variable (env) in
theorem cancelVestingSchedule_succeeds {scheduleId : Nat} (found : s.vaults id = some vault)
    (stored : s.vesting.schedule id scheduleId = some schedule) (accepted : schedule.Accepted)
    (signed : vault.owner ≠ env.self ∧ vault.owner ∈ env.signers) :
    (cancelVestingSchedule env id scheduleId vault.owner).succeeds s fun _ t =>
      t.vesting.schedule id scheduleId = none := by
  simp only [cancelVestingSchedule, setSchedule, loadOwned, succeeds_rules]
  refine ⟨signed, vault, found, rfl, schedule, stored, ?_, accepted.claimed_fits, ?_⟩
  · have := accepted.installments
    omega
  · rw [update_self, update_self]

/-- **A forfeiture settles the schedule exactly if there is nothing to forfeit.** -/
theorem forfeitureSettles_iff {config : VestingForfeitureConfig} {caller : Address}
    (found : s.vaults id = some vault) (fits : InI128 vault.balance)
    (external : vault.owner ≠ env.self) (stored : s.vesting.schedule id 0 = some schedule)
    (accepted : schedule.Accepted) (configured : s.vesting.forfeiture id = some config)
    (kept : config.forfeited = false)
    (declined : declineBeneficiaryRole env id caller s = .ok ((), t)) :
    ForfeitureSettles env.toHost id vault schedule.unclaimed t ↔
      schedule.unclaimed = 0 ∧ 0 ≤ vault.balance := by
  constructor
  · intro settles
    by_contra rest
    have nonneg := accepted.unclaimed_nonneg
    have covered := settles.covered
    have pos : 0 < schedule.unclaimed := by omega
    obtain ⟨left, schedules⟩ :=
      declineBeneficiaryRole_takes env caller found configured kept stored pos _ _ declined
    rw [← schedules] at stored
    -- the owner cancels the schedule
    obtain ⟨_, u, cancelled, removed⟩ := cancelVestingSchedule_succeeds
      { env with signers := [vault.owner] } left stored accepted ⟨external, mem_singleton_self _⟩
    have run : ContractRun env.toHost t [⟨t, ⟨{ env with signers := [vault.owner] },
      .cancelVestingSchedule id 0 vault.owner⟩, u⟩] u := .snoc .nil ⟨rfl, cancelled⟩
    refine settles.final pos _ u run _ (mem_singleton_self _) ⟨schedule, stored, .inr ⟨removed, ?_⟩⟩
    show t.balance id < u.balance id
    rw [cancelVestingSchedule_credits 0 _ left stored _ _ cancelled, State.balance, left]
    show vault.balance - schedule.unclaimed <
      saturateI128 (vault.balance - schedule.unclaimed + saturateI128 schedule.unclaimed)
    unfold saturateI128 InI128 maxI128 at *
    omega
  · rintro ⟨nothing, nonneg⟩
    refine ⟨by omega, fun pos => ?_⟩
    omega

theorem forfeitureSettles_claimed :
    let s := vested 4 [(1500, ⟨3⟩, .setVestingForfeiture 1 ⟨3⟩ ⟨9⟩), (2000, ⟨3⟩, .triggerRelease 1),
      (3000, ⟨4⟩, .claimVestedInstallment 1)]
    ForfeitureSettles plainHost 1 { hundred with status := .released, balance := 0 } 0
      ((declineBeneficiaryRole (plainEnv 3001 [⟨4⟩]) 1 ⟨4⟩).after s) := by
  intro s
  have stored : s.vesting.schedule 1 0 = some ⟨1100, 500, 4, 4, 100, 0⟩ := by decide +kernel
  have configured : s.vesting.forfeiture 1 = some ⟨⟨9⟩, false⟩ := by decide +kernel
  have ok : (declineBeneficiaryRole (plainEnv 3001 [⟨4⟩]) 1 ⟨4⟩ s).isOk = true := by decide +kernel
  exact (forfeitureSettles_iff rfl (by decide) (by decide) stored
    ⟨by decide, by decide, by decide, by decide⟩ configured rfl (Tx.eq_ok_after ok)).mpr
    ⟨by decide, by decide⟩

/-- The forfeiture pays 100 out of a balance of 40, and the owner cancels what was forfeited. -/
theorem forfeited_and_credited :
    let s := vested 3 [(1500, ⟨3⟩, .setVestingForfeiture 1 ⟨3⟩ ⟨9⟩), (1501, ⟨3⟩, .withdraw 1 ⟨3⟩ 60)]
    let t := (declineBeneficiaryRole (plainEnv 1502 [⟨4⟩]) 1 ⟨4⟩).after s
    s.balance 1 = 40 ∧ t.paidTo 1 ⟨9⟩ = 100 ∧ t.balance 1 = -60 ∧
      ((cancelVestingSchedule (plainEnv 1503 [⟨3⟩]) 1 0 ⟨3⟩).after t).balance 1 = 40 ∧
      ¬ ForfeitureSettles plainHost 1 { hundred with balance := 40 } 100 t := by
  intro s t
  refine ⟨by decide +kernel, by decide +kernel, by decide +kernel, by decide +kernel, ?_⟩
  intro settles
  exact absurd settles.covered (by decide)

end Cancellation

section Late

variable {env : Env} {id : VaultId} {s t : State} {vault : Vault} {schedule : VestingSchedule}

def VestingSchedule.late (schedule : VestingSchedule) (config : VestingPenaltyConfig)
    (now unlocked : Nat) : Nat :=
  (schedule.unlockTimes unlocked).countP (· < now - config.gracePeriodSeconds)

/-- What the penalty leaves of a claim of the installments up to `unlocked`. -/
def VestingSchedule.penalized (schedule : VestingSchedule) (config : VestingPenaltyConfig)
    (now unlocked : Nat) : Int :=
  let late := schedule.late config now unlocked
  let onTime := unlocked - schedule.claimedInstallments - late
  schedule.perInstallment * (onTime : Int) + schedule.perInstallment * late -
    (schedule.perInstallment * late * config.penaltyBps).tdiv 10000

/-- **The claim that completes the schedule** pays the whole balance, unless installments are late.
-/
def PaysAll (env : Env) (id : VaultId) (vault : Vault) (schedule : VestingSchedule)
    (s : State) : Prop :=
  ∀ config ∈ s.vesting.penalty id 0,
    schedule.late config env.now schedule.numInstallments = 0 ∨
      vault.balance ≤ schedule.penalized config env.now schedule.numInstallments

theorem acceleratedInstallments_le : (acceleratedInstallments env id schedule).wp s
    fun unlocked t => t = s ∧ unlocked ≤ schedule.numInstallments := by
  simp only [acceleratedInstallments, unlockedInstallments, wp_rules]
  exact ⟨fun _ => ⟨trivial, le_refl _⟩, fun _ _ _ => ⟨trivial, min_le_right ..⟩⟩

theorem takeRollover_le (base : Int) : (takeRollover id base).wp s fun amount t =>
    base ≤ amount ∧ ∃ rollover, t = { s with vesting.rollover := rollover } := by
  simp only [takeRollover, wp_rules]
  split
  · simp only [wp_rules]
    refine ⟨fun rolled _ => ⟨?_, _, rfl⟩, fun _ => ⟨le_refl _, s.vesting.rollover, rfl⟩⟩
    have := rolled.2
    omega
  · exact (wp_pure _ _ _).mpr ⟨le_refl _, s.vesting.rollover, rfl⟩

theorem penalizedAmount_pays {unlocked : Nat} {base : Int}
    (all : unlocked = schedule.numInstallments)
    (enough : vault.balance ≤ base) :
    (penalizedAmount env id vault schedule unlocked (unlocked - schedule.claimedInstallments)
      base).wp s fun amount t => t = s ∧ (amount ≤ vault.balance →
        (amount = vault.balance ↔ PaysAll env id vault schedule s)) := by
  subst all
  simp only [penalizedAmount, PaysAll, wp_rules]
  cases s.vesting.penalty id 0 with
  | none =>
    rw [wp_pure]
    refine ⟨rfl, fun covered => ⟨fun _ _ none => (Option.not_mem_none _ none).elim, fun _ => ?_⟩⟩
    omega
  | some config =>
    simp only [wp_rules, Option.mem_def, Option.some.injEq, forall_eq']
    refine ⟨fun late _ _ _ _ _ _ => ⟨trivial, fun _ => ?_⟩, fun none => ⟨trivial, fun covered => ?_⟩⟩
    · rw [if_pos (le_refl _), or_iff_right (by exact late.ne')]
      exact min_eq_right_iff
    · refine iff_of_true (by omega) (.inl ?_)
      exact Nat.eq_zero_of_not_pos none

theorem claimVestedInstallment_completes (found : s.vaults id = some vault)
    (stored : s.vesting.schedule id 0 = some schedule) :
    (claimVestedInstallment env id).wp s fun _ t =>
      t.vesting.scheduleCount = s.vesting.scheduleCount ∧ ∃ unlocked,
        t.vesting.schedule = s.vesting.withFirst id (some (schedule.claimedUpTo unlocked)) ∧
        (schedule.numInstallments ≤ unlocked →
          (t.balance id = 0 ↔ PaysAll env id vault schedule s)) := by
  simp only [claimVestedInstallment, wp_rules, wp_loadClaimable]
  intro _ _ found' _ _ stored' remaining started
  cases found.symm.trans found'
  cases stored.symm.trans stored'
  refine (assertCliffReached_spec env s started).mono ?_
  rintro _ s ⟨rfl, -⟩
  refine acceleratedInstallments_le.mono ?_
  rintro unlocked s ⟨rfl, le⟩
  intro _
  refine (baseAmount_spec s vault schedule unlocked).mono ?_
  rintro base s ⟨rfl, rfl⟩
  refine (takeRollover_le _).mono ?_
  rintro rolled _ ⟨more, rollover, rfl⟩
  have pays : (penalizedAmount env id vault schedule unlocked
      (unlocked - schedule.claimedInstallments) rolled).wp { s with vesting.rollover := rollover }
      fun amount t => t = { s with vesting.rollover := rollover } ∧
        (schedule.numInstallments ≤ unlocked → amount ≤ vault.balance →
          (amount = vault.balance ↔ PaysAll env id vault schedule s)) := by
    by_cases all : schedule.numInstallments ≤ unlocked
    · rw [claimAmount, if_pos all] at more
      refine (penalizedAmount_pays (Nat.le_antisymm le all) more).mono fun amount t spec => ?_
      exact ⟨spec.1, fun _ => spec.2⟩
    · refine (penalizedAmount_spec env id _ vault schedule unlocked _ rolled).mono ?_
      exact fun _ _ spec => ⟨spec.1, fun complete => absurd complete all⟩
  refine pays.mono ?_
  rintro amount _ ⟨rfl, pays⟩
  refine (settleClaim_settled env id _ vault schedule amount unlocked).mono ?_
  intro _ t settled
  refine ⟨settled.count, unlocked, settled.schedule, fun all => ?_⟩
  rw [← pays all settled.covered, State.balance, settled.vaults, update_self]
  show vault.balance - amount = 0 ↔ _
  omega

theorem clawback_complete {later : Env} {caller : Address} {u : State}
    (only : storedSchedules t id = [schedule])
    (complete : schedule.numInstallments ≤ schedule.claimedInstallments) :
    clawbackUnvested later id caller t ≠ .ok ((), u) := by
  intro clawed
  obtain ⟨_, amount, _, sum, something, _⟩ := clawbackUnvested_pays later id t caller _ _ clawed
  refine something (sum.trans ?_)
  simp [only, VestingSchedule.remaining, Nat.sub_eq_zero_of_le complete]

/-- **A late claim strands what it withholds**: after the claim that completes the only schedule the
balance is gone, or comes back with a clawback, exactly if the claim paid all of it. -/
theorem lateClaim_recovers_iff (found : s.vaults id = some vault)
    (stored : s.vesting.schedule id 0 = some schedule)
    (single : s.vesting.scheduleCount id = 1)
    (claimed : claimVestedInstallment env id s = .ok ((), t))
    (complete : ∀ later ∈ t.vesting.schedule id 0,
      later.numInstallments ≤ later.claimedInstallments) :
    (t.balance id = 0 ∨ ∃ later caller u, clawbackUnvested later id caller t = .ok ((), u) ∧
        u.balance id = 0) ↔ PaysAll env id vault schedule s := by
  obtain ⟨count, unlocked, schedules, pays⟩ :=
    claimVestedInstallment_completes found stored _ _ claimed
  have all : schedule.numInstallments ≤ unlocked :=
    complete (schedule.claimedUpTo unlocked) (by rw [schedules]; exact withFirst_self ..)
  have only : storedSchedules t id = [schedule.claimedUpTo unlocked] := by
    rw [storedSchedules, count, single, schedules]
    simp
  rw [← pays all]
  refine or_iff_left ?_
  rintro ⟨later, caller, u, clawed, -⟩
  exact clawback_complete only all clawed

/-- Within the grace period the completing claim pays everything. -/
theorem lateClaim_recovers_inTime :
    let s := vested 4 [(1500, ⟨3⟩, .record (.setVestingPenalty 1 ⟨3⟩ 1000 86400)),
      (2000, ⟨3⟩, .triggerRelease 1)]
    let t := (claimVestedInstallment (plainEnv 3000 []) 1).after s
    t.balance 1 = 0 ∨ ∃ later caller u, clawbackUnvested later 1 caller t = .ok ((), u) ∧
      u.balance 1 = 0 := by
  intro s t
  have ok : (claimVestedInstallment (plainEnv 3000 []) 1 s).isOk = true := by decide +kernel
  have found : s.vaults 1 = some { hundred with status := .released } := rfl
  have stored : s.vesting.schedule 1 0 = some ⟨1100, 500, 4, 0, 100, 0⟩ := rfl
  refine (lateClaim_recovers_iff found stored rfl (Tx.eq_ok_after ok) (by decide +kernel)).mpr ?_
  have config : s.vesting.penalty 1 0 = some ⟨1000, 86400⟩ := rfl
  rw [PaysAll, config]
  exact fun _ same => .inl (by cases same; decide)

/-- The completing claim withholds 10 of 100, and nobody can recover them. -/
theorem late_claim_strands :
    let s := vested 4 [(1500, ⟨3⟩, .record (.setVestingPenalty 1 ⟨3⟩ 1000 0)),
      (2000, ⟨3⟩, .triggerRelease 1), (3000, ⟨4⟩, .claimVestedInstallment 1)]
    storedSchedules s 1 = [⟨1100, 500, 4, 4, 100, 0⟩] ∧ s.balance 1 = 10 ∧
      ∀ later caller u, clawbackUnvested later 1 caller s ≠ .ok ((), u) := by
  intro s
  have stored : storedSchedules s 1 = [⟨1100, 500, 4, 4, 100, 0⟩] := by decide +kernel
  exact ⟨stored, by decide +kernel, fun later caller u => clawback_complete stored (by decide)⟩

end Late

end EthosContracts.TtlVault
