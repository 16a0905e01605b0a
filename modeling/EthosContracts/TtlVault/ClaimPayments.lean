/-
**What claims on a schedule pay, and to whom.**
-/

import EthosContracts.TtlVault.Call
import EthosContracts.TtlVault.Claims

namespace EthosContracts.TtlVault

open Lib List

/-! ### The vault and its claims -/

/-- A released vault whose balance vests in installments, nothing of it claimed, without options. -/
structure VestingStart (id : VaultId) (vault : Vault) (schedule : VestingSchedule) (s : State) :
    Prop where
  found : s.vaults id = some vault
  shares : (vault.beneficiaries.map (·.bps)).sum ≤ 10000
  stored : s.vesting.schedule id 0 = some schedule
  unclaimed : schedule.claimedInstallments = 0
  installments : 0 < schedule.numInstallments
  total : schedule.totalAmount = vault.balance
  nonneg : 0 ≤ schedule.totalAmount
  unmodified : s.Unmodified id

/-- The two calls that claim installments directly. -/
inductive InstallmentClaim (id : VaultId) : Call → Prop
  | claimVestedInstallment : InstallmentClaim id (.claimVestedInstallment id)
  | claimCatchupVesting : InstallmentClaim id (.claimCatchupVesting id)

def State.claimedInstallments (s : State) (id : VaultId) : Nat :=
  ((s.vesting.schedule id 0).map (·.claimedInstallments)).getD 0

/-- What the claimed installments are worth: the last one takes the rest. -/
def VestingSchedule.worth (schedule : VestingSchedule) (claimed : Nat) : Int :=
  if claimed < schedule.numInstallments then
    claimed * (schedule.totalAmount / schedule.numInstallments)
  else schedule.totalAmount

/-! ### Totals -/

/-- A vault with `claimed` installments paid since the start, and the rest of the total in it. -/
structure PaidUp (id : VaultId) (vault : Vault) (schedule : VestingSchedule) (start s : State)
    (claimed : Nat) : Prop where
  bound : claimed ≤ schedule.numInstallments
  stored : s.vesting.schedule id 0 = some (schedule.claimedUpTo claimed)
  found : s.vaults id = some { vault with balance := schedule.totalAmount - schedule.worth claimed }
  paid : s.paidFrom id = start.paidFrom id + schedule.worth claimed
  alone : vault.beneficiaries = [] → s.paidTo id vault.beneficiary =
    start.paidTo id vault.beneficiary + schedule.worth claimed
  unmodified : s.Unmodified id

section Totals

variable {id : VaultId} {vault : Vault} {schedule : VestingSchedule} {start s t : State}

theorem VestingSchedule.worth_zero (installments : 0 < schedule.numInstallments) :
    schedule.worth 0 = 0 := by
  rw [VestingSchedule.worth, if_pos installments]
  simp

theorem VestingSchedule.worth_le (nonneg : 0 ≤ schedule.totalAmount) (claimed : Nat) :
    schedule.worth claimed ≤ schedule.totalAmount := by
  unfold VestingSchedule.worth
  split
  · rename_i some
    have pos : (0 : Int) < schedule.numInstallments := by omega
    calc (claimed : Int) * (schedule.totalAmount / schedule.numInstallments)
        ≤ schedule.numInstallments * (schedule.totalAmount / schedule.numInstallments) :=
          Int.mul_le_mul_of_nonneg_right (by omega) (Int.ediv_nonneg nonneg pos.le)
      _ ≤ schedule.totalAmount := Int.mul_ediv_self_le pos.ne'
  · exact le_rfl

variable {claimed count : Nat} {amount : Int}

theorem VestingSchedule.worth_mono (nonneg : 0 ≤ schedule.totalAmount)
    (le : claimed ≤ count) : schedule.worth claimed ≤ schedule.worth count := by
  by_cases last : count < schedule.numInstallments
  · have per : 0 ≤ schedule.totalAmount / schedule.numInstallments :=
      Int.ediv_nonneg nonneg (Int.natCast_nonneg _)
    unfold VestingSchedule.worth
    rw [if_pos last, if_pos (by omega)]
    exact Int.mul_le_mul_of_nonneg_right (by omega) per
  · have all : schedule.worth count = schedule.totalAmount := if_neg last
    rw [all]
    exact schedule.worth_le nonneg claimed

theorem claimAmount_worth (nonneg : 0 ≤ schedule.totalAmount)
    (more : claimed < count) (bound : count ≤ schedule.numInstallments) :
    claimAmount { vault with balance := schedule.totalAmount - schedule.worth claimed }
      (schedule.claimedUpTo claimed) count = schedule.worth count - schedule.worth claimed := by
  have same : (schedule.claimedUpTo claimed).numInstallments = schedule.numInstallments := rfl
  have per : (schedule.claimedUpTo claimed).perInstallment =
      schedule.totalAmount / schedule.numInstallments := Int.tdiv_eq_ediv_of_nonneg nonneg
  have before : schedule.worth claimed =
      claimed * (schedule.totalAmount / schedule.numInstallments) := if_pos (by omega)
  unfold claimAmount
  rw [same, per]
  by_cases last : schedule.numInstallments ≤ count
  · rw [if_pos last, VestingSchedule.worth, VestingSchedule.worth, if_neg (by omega : ¬ count < _)]
  · have after : schedule.worth count =
        count * (schedule.totalAmount / schedule.numInstallments) := if_pos (by omega)
    have difference : ((count - claimed : Nat) : Int) = count - claimed := by omega
    rw [if_neg last, before, after, Int.mul_comm]
    show ((count - claimed : Nat) : Int) * _ = _
    rw [difference, Int.sub_mul]

theorem settleClaim_paidTo (env : Env) (id : VaultId) (vault : Vault)
    (schedule : VestingSchedule) (count : Nat) (nonneg : 0 ≤ amount)
    (shares : (vault.beneficiaries.map (·.bps)).sum ≤ 10000) (s : State) :
    (settleClaim env id vault schedule amount count).wp s fun _ t => ∀ payee,
      t.paidTo id payee = s.paidTo id payee + vault.shareOf amount payee := by
  simp only [settleClaim, setSchedule, wp_rules]
  intro _
  refine (payBeneficiaries_paid env id vault amount nonneg shares s).mono fun _ t paid => ?_
  exact fun _ => paid.paidTo

section

variable (begun : VestingStart id vault schedule start)
include begun

theorem VestingStart.paidUp : PaidUp id vault schedule start start 0 := by
  have nothing := VestingSchedule.worth_zero begun.installments
  refine ⟨Nat.zero_le _, ?_, ?_, ?_, fun _ => ?_, begun.unmodified⟩
  · rw [begun.stored, ← begun.unclaimed]
    rfl
  · rw [begun.found, nothing, Int.sub_zero, begun.total]
  · rw [nothing, Int.add_zero]
  · rw [nothing, Int.add_zero]

variable (up : PaidUp id vault schedule start s claimed)
include up

theorem PaidUp.settle {env : Env} {stored : Vault} {current : VestingSchedule}
    (claimable : Claimable env id stored current s)
    (advances : Advances env stored current amount count) :
    (settleClaim env id stored current amount count).wp s fun _ t =>
      PaidUp id vault schedule start t count := by
  cases claimable.found.symm.trans up.found
  cases claimable.stored.symm.trans up.stored
  obtain ⟨more, unlocked, amountEq⟩ := advances
  have more : claimed < count := more
  have bound : count ≤ schedule.numInstallments := by
    refine unlocked.trans ?_
    rw [VestingSchedule.unlocked_claimedUpTo, VestingSchedule.unlocked]
    split
    · exact Nat.zero_le _
    · exact min_le_left _ _
  rw [claimAmount_worth begun.nonneg more bound] at amountEq
  have nonneg : 0 ≤ amount := by
    have grows := schedule.worth_mono begun.nonneg more.le
    omega
  have payments := settleClaim_paidTo env id
    { vault with balance := schedule.totalAmount - schedule.worth claimed }
    (schedule.claimedUpTo claimed) count nonneg begun.shares s
  refine ((settleClaim_settled env id s _ _ amount count).and payments).mono ?_
  rintro _ t ⟨settled, paidTo⟩
  refine ⟨bound, ?_, ?_, ?_, fun alone => ?_, settled.unmodified up.unmodified⟩
  · rw [settled.schedule, withFirst_self]
    rfl
  · rw [settled.vaults, Function.update_self, amountEq]
    congr 2
    dsimp only
    omega
  · rw [settled.paid nonneg begun.shares, up.paid, amountEq]
    omega
  · have due : Vault.shareOf { vault with
        balance := schedule.totalAmount - schedule.worth claimed } amount vault.beneficiary =
        amount := by
      simp [Vault.shareOf, alone]
    rw [paidTo, due, up.alone alone, amountEq]
    omega

theorem PaidUp.claim (env : Env) {call : Call} (claims : InstallmentClaim id call) :
    (exec env call).wp s fun _ t => ∃ count, PaidUp id vault schedule start t count := by
  cases claims with
  | claimVestedInstallment =>
    refine claimVestedInstallment_wp env id s ?_
    intro stored current amount count rollover claimable _ kept advances
    have rolled : PaidUp id vault schedule start { s with vesting.rollover := rollover }
        claimed := ⟨up.bound, up.stored, up.found, up.paid, up.alone, kept up.unmodified⟩
    have claimable : Claimable env id stored current { s with vesting.rollover := rollover } :=
      ⟨claimable.found, claimable.released, claimable.stored, claimable.remaining,
        claimable.started⟩
    exact (rolled.settle begun claimable (advances up.unmodified).1).mono fun _ t after =>
      ⟨count, after⟩
  | claimCatchupVesting =>
    refine claimCatchupVesting_wp env id s ?_
    intro stored current amount count claimable _ advances
    exact (up.settle begun claimable advances).mono fun _ t after => ⟨count, after⟩

end

theorem claims_paidUp {host : Host} {history : History} (run : ContractRun host start history s)
    (begun : VestingStart id vault schedule start)
    (claims : ∀ event ∈ history, InstallmentClaim id event.input.call) :
    PaidUp id vault schedule start s (s.claimedInstallments id) := by
  have reached : ∃ claimed, PaidUp id vault schedule start s claimed := by
    refine run.invariant (fun u => ∃ claimed, PaidUp id vault schedule start u claimed)
      (fun _ input => InstallmentClaim id input.call) ⟨0, begun.paidUp⟩ ?_ claims
    rintro before input after ⟨claimed, up⟩ allowed ⟨-, ran⟩
    exact up.claim begun input.env allowed _ _ ran
  obtain ⟨claimed, up⟩ := reached
  have counted : s.claimedInstallments id = claimed := by
    rw [State.claimedInstallments, up.stored]
    rfl
  rw [counted]
  exact up

end Totals

/-- **Payouts do not depend on when claims are made.** After every sequence of claims, what has been
paid is the claimed installments' part of the total, and the vault holds the rest; any other vault
with the same schedule that has come as far has paid as much. -/
theorem claims_total {host : Host} {id : VaultId} {vault : Vault} {schedule : VestingSchedule}
    {start s : State} {history : History} (run : ContractRun host start history s)
    (begun : VestingStart id vault schedule start)
    (claims : ∀ event ∈ history, InstallmentClaim id event.input.call) :
    (s.claimedInstallments id < schedule.numInstallments →
        s.paidFrom id - start.paidFrom id =
          s.claimedInstallments id * (schedule.totalAmount / schedule.numInstallments)) ∧
      (s.claimedInstallments id = schedule.numInstallments →
        s.paidFrom id - start.paidFrom id = schedule.totalAmount) ∧
      s.claimedInstallments id ≤ schedule.numInstallments ∧
      (s.vaults id).map (·.balance) =
        some (schedule.totalAmount - (s.paidFrom id - start.paidFrom id)) ∧
      (vault.beneficiaries = [] →
        s.paidTo id vault.beneficiary - start.paidTo id vault.beneficiary =
          s.paidFrom id - start.paidFrom id) ∧
      ∀ {otherHost : Host} {otherId : VaultId} {otherVault : Vault} {otherStart u : State}
        {otherHistory : History}, ContractRun otherHost otherStart otherHistory u →
        VestingStart otherId otherVault schedule otherStart →
        (∀ event ∈ otherHistory, InstallmentClaim otherId event.input.call) →
        u.claimedInstallments otherId = s.claimedInstallments id →
        u.paidFrom otherId - otherStart.paidFrom otherId = s.paidFrom id - start.paidFrom id := by
  have up := claims_paidUp run begun claims
  have paid : s.paidFrom id - start.paidFrom id = schedule.worth (s.claimedInstallments id) := by
    rw [up.paid]
    omega
  refine ⟨fun some => ?_, fun all => ?_, up.bound, ?_, fun alone => ?_, ?_⟩
  · rw [paid, VestingSchedule.worth, if_pos some]
  · rw [paid, VestingSchedule.worth, if_neg (by omega)]
  · rw [up.found, paid]
    rfl
  · rw [up.alone alone, paid]
    omega
  · intro otherHost otherId otherVault otherStart u otherHistory otherRun otherBegun otherClaims same
    have other := claims_paidUp otherRun otherBegun otherClaims
    rw [paid, other.paid, same]
    omega

def vestingScenario : Scenario :=
  [(1000, ⟨3⟩, .createVault ⟨3⟩ ⟨4⟩ 600 none), (1001, ⟨3⟩, .deposit 1 ⟨3⟩ 100),
    (1002, ⟨3⟩, .record (.setVestingSchedule 1 ⟨3⟩ 1100 500 3 100 0)),
    (1003, ⟨3⟩, .record (.setVestingCatchup 1 ⟨3⟩ true 1)), (2000, ⟨3⟩, .triggerRelease 1)]

def vestingState : State := (played vestingScenario).2

theorem vestingState_vault : (vestingState.vaults 1).isSome = true := by decide +kernel

theorem vestingState_start :
    VestingStart 1 ((vestingState.vaults 1).get vestingState_vault) ⟨1100, 500, 3, 0, 100, 0⟩
      vestingState where
  found := (Option.some_get _).symm
  shares := by decide +kernel
  stored := rfl
  unclaimed := rfl
  installments := by decide
  total := by decide +kernel
  nonneg := by decide
  unmodified := ⟨by decide +kernel, by decide +kernel, by decide +kernel⟩

def oneByOne : Scenario :=
  [(2001, ⟨4⟩, .claimCatchupVesting 1), (2050, ⟨4⟩, .claimCatchupVesting 1)]

def atOnce : Scenario := [(2090, ⟨4⟩, .claimVestedInstallment 1)]

theorem replayed_claims {start : State} {id : VaultId} {calls : Scenario}
    (claims : ∀ entry ∈ calls, InstallmentClaim id entry.2.2) :
    ∀ event ∈ (replay start (plainInputs calls)).1, InstallmentClaim id event.input.call := by
  intro event member
  obtain ⟨entry, listed, same⟩ :=
    mem_map.mp (replay_inputs start (plainInputs calls) event member)
  rw [← same]
  exact claims entry listed

/-- Either way 66 have been paid. -/
theorem claims_total_oneByOne :
    (replay vestingState (plainInputs oneByOne)).2.claimedInstallments 1 = 2 ∧
      (replay vestingState (plainInputs oneByOne)).2.paidFrom 1 - vestingState.paidFrom 1 =
        2 * (100 / 3) ∧
      (replay vestingState (plainInputs atOnce)).2.paidFrom 1 - vestingState.paidFrom 1 =
        (replay vestingState (plainInputs oneByOne)).2.paidFrom 1 - vestingState.paidFrom 1 := by
  have slow : ∀ event ∈ (replay vestingState (plainInputs oneByOne)).1,
      InstallmentClaim 1 event.input.call := by
    refine replayed_claims fun entry listed => ?_
    simp only [oneByOne, mem_cons, not_mem_nil, or_false] at listed
    rcases listed with rfl | rfl <;> exact .claimCatchupVesting
  have fast : ∀ event ∈ (replay vestingState (plainInputs atOnce)).1,
      InstallmentClaim 1 event.input.call := by
    refine replayed_claims fun entry listed => ?_
    rw [mem_singleton.mp listed]
    exact .claimVestedInstallment
  obtain ⟨some, -, -, -, -, same⟩ :=
    claims_total (plainInputs_run_from vestingState oneByOne) vestingState_start slow
  exact ⟨rfl, some (by decide +kernel), same (plainInputs_run_from vestingState atOnce)
    vestingState_start fast (by decide +kernel)⟩

/-! ### Claims with a reversal window -/

section Reversible

variable {env later : Env} {id : VaultId} {vault : Vault} {schedule : VestingSchedule}
  {window : Nat} {s middle final t : State}

def Vault.firstPayee (vault : Vault) : Address :=
  (vault.beneficiaries.head?.map (·.address)).getD vault.beneficiary

theorem finalizeVestingClaim_paidTo (env : Env) (id : VaultId) (s : State) :
    (finalizeVestingClaim env id).wp s fun _ t => ∃ pending,
      s.vesting.pendingClaim id 0 = some pending ∧ 0 ≤ pending.amount ∧ ∀ payee,
        t.paidTo id payee =
          s.paidTo id payee + if pending.beneficiary = payee then pending.amount else 0 := by
  simp only [finalizeVestingClaim, setPendingClaim, wp_rules]
  intro _ pending stored _ vault _ _ _ ledger moved _
  exact ⟨pending, stored, (Ledger.transfer_eq_some.mp moved).1.1, fun payee =>
    paidTo_payOut id _ _ _ s ledger payee⟩

theorem reversible_paidTo (stored : s.vaults id = some vault)
    (scheduled : s.vesting.schedule id 0 = some schedule)
    (initiated : initiateVestingClaim env id window s = .ok ((), middle))
    (finalized : finalizeVestingClaim later id middle = .ok ((), final)) :
    0 ≤ claimAmount vault schedule (schedule.unlocked env.now) ∧ ∀ payee,
      final.paidTo id payee = s.paidTo id payee +
        if vault.firstPayee = payee then claimAmount vault schedule (schedule.unlocked env.now)
        else 0 := by
  obtain ⟨found, current, claimable, -, -, rfl⟩ :=
    initiateVestingClaim_reserves env id s window _ _ initiated
  cases stored.symm.trans claimable.found
  cases scheduled.symm.trans claimable.stored
  obtain ⟨pending, reserved, nonneg, paid⟩ := finalizeVestingClaim_paidTo later id _ _ _ finalized
  obtain rfl : pendingClaimOf env vault schedule window = pending := by
    simpa using reserved
  exact ⟨nonneg, paid⟩

theorem claimVestedInstallment_paidTo (stored : s.vaults id = some vault)
    (scheduled : s.vesting.schedule id 0 = some schedule) (unmodified : s.Unmodified id)
    (shares : (vault.beneficiaries.map (·.bps)).sum ≤ 10000)
    (nonneg : 0 ≤ claimAmount vault schedule (schedule.unlocked env.now)) :
    (claimVestedInstallment env id).wp s fun _ t => ∀ payee,
      t.paidTo id payee = s.paidTo id payee +
        vault.shareOf (claimAmount vault schedule (schedule.unlocked env.now)) payee := by
  refine claimVestedInstallment_wp env id s ?_
  intro found current amount count rollover claimable _ _ advances
  cases stored.symm.trans claimable.found
  cases scheduled.symm.trans claimable.stored
  obtain ⟨⟨-, -, rfl⟩, rfl⟩ := advances unmodified
  exact settleClaim_paidTo env id vault schedule _ nonneg shares _

/-- The first payee has the only share of an amount. -/
def SoleShare (vault : Vault) (amount : Int) : Prop :=
  ∀ share ∈ apportion BeneficiaryEntry.bps amount 10000 vault.beneficiaries amount,
    share.1.address = vault.firstPayee ∨ share.2 = 0

theorem shareOf_firstPayee_iff {amount : Int} (nonneg : 0 ≤ amount)
    (shares : (vault.beneficiaries.map (·.bps)).sum ≤ 10000) :
    (∀ payee, vault.shareOf amount payee = if vault.firstPayee = payee then amount else 0) ↔
      SoleShare vault amount := by
  by_cases listed : vault.beneficiaries = []
  · have primary : vault.firstPayee = vault.beneficiary := by
      rw [Vault.firstPayee, listed]
      rfl
    simp [Vault.shareOf, SoleShare, listed, primary, apportion]
  · have sole := received_sole_iff BeneficiaryEntry.address (splitShares_nonneg nonneg shares)
      vault.firstPayee
    rw [apportion_sum listed] at sole
    unfold Vault.shareOf
    simp only [if_neg listed]
    exact sole

end Reversible

/-- **When the reversible path pays the same people.** If a claim is initiated and finalised, and
the direct claim would go through in its place, they pay every address the same exactly if nobody
but the first payee has a share of the amount. -/
theorem reversible_alike_iff {env later : Env} {id : VaultId} {vault : Vault}
    {schedule : VestingSchedule} {window : Nat} {s middle final t : State}
    (stored : s.vaults id = some vault)
    (scheduled : s.vesting.schedule id 0 = some schedule)
    (shares : (vault.beneficiaries.map (·.bps)).sum ≤ 10000) (unmodified : s.Unmodified id)
    (initiated : initiateVestingClaim env id window s = .ok ((), middle))
    (finalized : finalizeVestingClaim later id middle = .ok ((), final))
    (claimed : claimVestedInstallment env id s = .ok ((), t)) :
    (∀ payee, final.paidTo id payee = t.paidTo id payee) ↔
      SoleShare vault (claimAmount vault schedule (schedule.unlocked env.now)) := by
  obtain ⟨nonneg, reversible⟩ := reversible_paidTo stored scheduled initiated finalized
  have direct := claimVestedInstallment_paidTo stored scheduled unmodified shares nonneg _ _ claimed
  rw [← shareOf_firstPayee_iff nonneg shares]
  refine forall_congr' fun payee => ?_
  rw [reversible, direct]
  omega

def claimedDirectly (s : State) : State := (claimVestedInstallment (plainEnv 2001 []) 1).after s

def claimInitiated (s : State) : State := (initiateVestingClaim (plainEnv 2001 []) 1 60).after s

def claimFinalized (s : State) : State :=
  (finalizeVestingClaim (plainEnv 2101 []) 1).after (claimInitiated s)

def heirsVesting (entries : List BeneficiaryEntry) : Scenario :=
  [(1000, ⟨3⟩, .createVault ⟨3⟩ ⟨4⟩ 600 none), (1001, ⟨3⟩, .deposit 1 ⟨3⟩ 100),
    (1002, ⟨3⟩, .setBeneficiaries 1 ⟨3⟩ entries),
    (1003, ⟨3⟩, .record (.setVestingSchedule 1 ⟨3⟩ 1100 500 3 100 0)),
    (2000, ⟨3⟩, .triggerRelease 1)]

def minorShare : State :=
  (played (heirsVesting [⟨⟨4⟩, 5000, 0⟩, ⟨⟨5⟩, 1, 0⟩, ⟨⟨4⟩, 4999, 0⟩])).2

theorem minorShare_vault : (minorShare.vaults 1).isSome = true := by decide +kernel

/-- One basis point of 66 is nothing: the first beneficiary is paid all, either way. -/
theorem reversible_alike_minorShare :
    (∀ payee, (claimFinalized minorShare).paidTo 1 payee =
        (claimedDirectly minorShare).paidTo 1 payee) ∧
      (claimFinalized minorShare).paidTo 1 ⟨4⟩ = 66 := by
  have scheduled : minorShare.vesting.schedule 1 0 = some ⟨1100, 500, 3, 0, 100, 0⟩ := rfl
  refine ⟨(reversible_alike_iff (Option.some_get minorShare_vault).symm scheduled (by decide +kernel)
    ⟨by decide +kernel, by decide +kernel, by decide +kernel⟩ (Tx.eq_ok_after (by decide +kernel))
    (Tx.eq_ok_after (by decide +kernel)) (Tx.eq_ok_after (by decide +kernel))).mpr ?_,
    by decide +kernel⟩
  unfold SoleShare
  decide +kernel

def sharedVesting : Scenario := heirsVesting [⟨⟨4⟩, 5000, 0⟩, ⟨⟨5⟩, 5000, 0⟩]

def sharedState : State := (played sharedVesting).2

/-- **The direct claim pays 33 to each, the reversible one 66 to the first.** -/
theorem sharedVesting_not_alike :
    PlainRun (played sharedVesting).1 sharedState ∧
      (initiateVestingClaim (plainEnv 2001 []) 1 60 sharedState).isOk = true ∧
      (finalizeVestingClaim (plainEnv 2101 []) 1 (claimInitiated sharedState)).isOk = true ∧
      (claimVestedInstallment (plainEnv 2001 []) 1 sharedState).isOk = true ∧
      ((claimedDirectly sharedState).paidTo 1 ⟨4⟩ = 33 ∧
        (claimedDirectly sharedState).paidTo 1 ⟨5⟩ = 33) ∧
      ((claimFinalized sharedState).paidTo 1 ⟨4⟩ = 66 ∧
        (claimFinalized sharedState).paidTo 1 ⟨5⟩ = 0) := by
  refine ⟨plainInputs_run _, ?_, ?_, ?_, ?_, ?_⟩ <;> decide +kernel

end EthosContracts.TtlVault
