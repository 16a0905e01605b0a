/-
**The first schedule of a vault**, the only one that claims read.
-/

import EthosContracts.TtlVault.Transition

namespace EthosContracts.TtlVault

open Lib Function

/-! ### The first schedule of a vault -/

/-- The schedule with its pending claim. -/
structure FirstVesting where
  count : Nat
  schedule : Option VestingSchedule
  pending : Option VestingPendingClaim

def State.firstVesting (s : State) (id : VaultId) : FirstVesting where
  count := s.vesting.scheduleCount id
  schedule := s.vesting.schedule id 0
  pending := s.vesting.pendingClaim id 0

/-- **The life of a first schedule.** Its index is taken once; afterwards its terms stay, its
claimed installments are counted, and it may be cancelled. -/
inductive FirstVesting.Step (opens : VestingSchedule → VestingPendingClaim → Prop) :
    FirstVesting → FirstVesting → Prop
  | idle {v} : Step opens v v
  | attach {first pending} (schedule) : Step opens ⟨0, first, pending⟩ ⟨1, some schedule, pending⟩
  | attachAnother {count first pending} (taken : count ≠ 0) :
      Step opens ⟨count, first, pending⟩ ⟨count + 1, first, pending⟩
  | claim {count schedule pending} (claimed) :
      Step opens ⟨count, some schedule, pending⟩ ⟨count, some (schedule.claimedUpTo claimed), pending⟩
  | cancel {count first pending} : Step opens ⟨count, first, pending⟩ ⟨count, none, pending⟩
  | initiate {count schedule claim} (claimed) (opened : opens schedule claim) :
      Step opens ⟨count, some schedule, none⟩
        ⟨count, some (schedule.claimedUpTo claimed), some claim⟩
  | reverse {count first claim} (claimed) : Step opens ⟨count, first, some claim⟩
        ⟨count, first.map (·.claimedUpTo claimed), none⟩
  | finalize {count first claim} : Step opens ⟨count, first, some claim⟩ ⟨count, first, none⟩

/-- The call opens this claim on this schedule. -/
def Call.opensClaim (env : Env) (s : State) (id : VaultId) (call : Call)
    (schedule : VestingSchedule) (claim : VestingPendingClaim) : Prop :=
  ∃ vault window, call = .record (.initiateVestingClaim id window) ∧
    s.vaults id = some vault ∧ claim = pendingClaimOf env vault schedule window

section Steps

variable {env : Env} {s t : State} {call : Call} {id : VaultId}

/-- What every call does to the first schedule of every vault. -/
def VestingStep (env : Env) (s : State) (call : Call) (t : State) : Prop :=
  ∀ id, FirstVesting.Step (call.opensClaim env s id) (s.firstVesting id) (t.firstVesting id)

theorem VestingStep.of_claimBooks (same : t.claimBooks = s.claimBooks) :
    VestingStep env s call t := by
  intro id
  have kept : t.firstVesting id = s.firstVesting id := by
    have schedule := congrArg ClaimBooks.schedule same
    have count := congrArg ClaimBooks.scheduleCount same
    have pending := congrArg ClaimBooks.pendingClaim same
    simp only [State.claimBooks] at schedule count pending
    simp only [State.firstVesting, schedule, count, pending]
  rw [kept]
  exact .idle

theorem VestingStep.of_vault (id : VaultId)
    (here : FirstVesting.Step (call.opensClaim env s id) (s.firstVesting id) (t.firstVesting id))
    (elsewhere : ∀ other, other ≠ id → t.firstVesting other = s.firstVesting other) :
    VestingStep env s call t := by
  intro other
  by_cases same : other = id
  · rw [same]
    exact here
  · rw [elsewhere other same]
    exact .idle

theorem VestingStep.of_written {schedule : Option VestingSchedule}
    {pending : Option VestingPendingClaim}
    (count : t.vesting.scheduleCount = s.vesting.scheduleCount)
    (schedules : t.vesting.schedule = s.vesting.withFirst id schedule)
    (claims : t.vesting.pendingClaim = s.vesting.withPending id pending)
    (here : FirstVesting.Step (call.opensClaim env s id) (s.firstVesting id)
      ⟨s.vesting.scheduleCount id, schedule, pending⟩) : VestingStep env s call t := by
  refine .of_vault id ?_ fun other ne => ?_
  · have now : t.firstVesting id = ⟨s.vesting.scheduleCount id, schedule, pending⟩ := by
      simp only [State.firstVesting, count, schedules, claims, withFirst_self, withPending_self]
    rw [now]
    exact here
  · simp only [State.firstVesting, count, schedules, claims, VestingState.withFirst,
      VestingState.withPending, update_of_ne ne]

variable {vault : Vault} {schedule : VestingSchedule} {amount : Int} {count index : Nat}

theorem Settled.vestingStep (settled : Settled id vault schedule amount count s t)
    (stored : s.vesting.schedule id 0 = some schedule) : VestingStep env s call t := by
  refine .of_written settled.count settled.schedule
    (settled.pending.trans (withPending_stored s.vesting id).symm) ?_
  unfold State.firstVesting
  rw [stored]
  exact .claim count

theorem setVestingSchedule_vestingStep (caller : Address)
    (startTime interval numInstallments : Nat) (amount : Int) (cliffPeriod : Nat) :
    (setVestingSchedule env id caller startTime interval numInstallments amount
      cliffPeriod).wp s fun _ t => VestingStep env s call t := by
  simp only [setVestingSchedule, setSchedule, wp_rules]
  intros
  refine (sumScheduled_readonly _ _).wp fun _ _ _ => ?_
  refine .of_vault id ?_ fun other ne => ?_
  · unfold State.firstVesting
    simp only [update_self]
    by_cases first : s.vesting.scheduleCount id = 0
    · rw [first, update_self]
      exact .attach _
    · rw [update_of_ne (Ne.symm first)]
      exact .attachAnother first
  · simp only [State.firstVesting, update_of_ne ne]

theorem cancelVestingSchedule_vestingStep (scheduleId : Nat) (caller : Address) :
    (cancelVestingSchedule env id scheduleId caller).wp s fun _ t =>
      VestingStep env s call t := by
  simp only [cancelVestingSchedule, setSchedule, wp_rules]
  intros
  refine .of_vault id ?_ fun other ne => ?_
  · unfold State.firstVesting
    simp only [update_self]
    by_cases first : scheduleId = 0
    · rw [first, update_self]
      exact .cancel
    · rw [update_of_ne (Ne.symm first)]
      exact .idle
  · simp only [State.firstVesting, update_of_ne ne]

theorem clawbackUnvested_vestingStep (caller : Address) :
    (clawbackUnvested env id caller).wp s fun _ t => VestingStep env s call t := by
  simp only [clawbackUnvested, wp_rules]
  intro _ _ vault _ _ _ attached
  refine (sumUnvested_readonly _ _).wp fun unvested _ _ => ?_
  intro ledger _ _
  refine .of_vault id ?_ fun other ne => ?_
  · unfold State.firstVesting
    simp only [update_self, if_pos (Nat.pos_of_ne_zero attached)]
    cases stored : s.vesting.schedule id 0 with
    | none => exact .idle
    | some schedule => exact .claim schedule.numInstallments
  · simp only [State.firstVesting, update_of_ne ne]

theorem exec_vestingStep (env : Env) (call : Call) (s : State) :
    (exec env call).wp s fun _ t => VestingStep env s call t := by
  by_cases other : call.vests = false
  · exact (exec_claimBooks env call other s).mono fun _ t same => .of_claimBooks same
  cases call with
  | record call =>
    cases call with
    | setVestingSchedule id caller startTime interval numInstallments amount cliffPeriod =>
      exact setVestingSchedule_vestingStep caller startTime interval numInstallments amount
        cliffPeriod
    | initiateVestingClaim id window =>
      refine (initiateVestingClaim_reserves env id s window).mono ?_
      rintro _ t ⟨vault, schedule, claimable, free, -, rfl⟩
      refine .of_written rfl rfl rfl ?_
      unfold State.firstVesting
      rw [claimable.stored, free]
      exact .initiate _ ⟨vault, window, rfl, claimable.found, rfl⟩
    | reverseVestingClaim id caller =>
      refine (reverseVestingClaim_restores env id s caller).mono ?_
      rintro _ t ⟨pending, stored, rfl⟩
      refine .of_written rfl rfl rfl ?_
      unfold State.firstVesting
      rw [stored]
      exact .reverse _
    | _ => exact absurd rfl other
  | cancelVestingSchedule id scheduleId caller =>
    exact cancelVestingSchedule_vestingStep scheduleId caller
  | clawbackUnvested id caller => exact clawbackUnvested_vestingStep caller
  | claimVestedInstallment id =>
    refine (claimVestedInstallment_settled env id s).mono ?_
    rintro _ t ⟨vault, schedule, amount, count, claimable, -, settled, -⟩
    exact settled.vestingStep claimable.stored
  | claimCatchupVesting id =>
    refine (claimCatchupVesting_settled env id s).mono ?_
    rintro _ t ⟨vault, schedule, amount, count, claimable, -, settled, -⟩
    exact settled.vestingStep claimable.stored
  | claimWithBonus id =>
    refine (claimWithBonus_settled env id s).mono ?_
    rintro _ t ⟨vault, schedule, amount, count, claimable, -, settled⟩
    exact settled.vestingStep claimable.stored
  | finalizeVestingClaim id =>
    refine (finalizeVestingClaim_pays env id s).mono ?_
    rintro _ t ⟨vault, pending, -, stored, -, -, -, vesting, -⟩
    have schedules : t.vesting.schedule = s.vesting.withFirst id (s.vesting.schedule id 0) :=
      (congrArg VestingState.schedule vesting).trans (withFirst_stored s.vesting id).symm
    refine .of_written (by rw [vesting]) schedules (by rw [vesting]) ?_
    unfold State.firstVesting
    rw [stored]
    exact .finalize
  | _ => exact absurd rfl other

/-! ### Claims leave the other schedules alone -/

/-- The calls that claim installments of a vault. -/
inductive ClaimingCall (id : VaultId) : Call → Prop
  | claimVestedInstallment : ClaimingCall id (.claimVestedInstallment id)
  | claimCatchupVesting : ClaimingCall id (.claimCatchupVesting id)
  | claimWithBonus : ClaimingCall id (.claimWithBonus id)
  | initiateVestingClaim (reversalWindowSeconds) :
      ClaimingCall id (.record (.initiateVestingClaim id reversalWindowSeconds))
  | finalizeVestingClaim : ClaimingCall id (.finalizeVestingClaim id)

theorem Settled.others (settled : Settled id vault schedule amount count s t)
    (other : index ≠ 0) :
    t.vesting.schedule id index = s.vesting.schedule id index ∧
      t.vesting.pendingClaim id index = s.vesting.pendingClaim id index := by
  rw [settled.schedule, settled.pending]
  exact ⟨withFirst_of_ne _ _ _ other, rfl⟩

theorem ClaimingCall.others (claiming : ClaimingCall id call)
    (ran : exec env call s = .ok ((), t)) (other : index ≠ 0) :
    t.vesting.schedule id index = s.vesting.schedule id index ∧
      t.vesting.pendingClaim id index = s.vesting.pendingClaim id index := by
  cases claiming with
  | claimVestedInstallment =>
    obtain ⟨vault, schedule, amount, count, -, -, settled, -⟩ :=
      claimVestedInstallment_settled env id s _ _ ran
    exact settled.others other
  | claimCatchupVesting =>
    obtain ⟨vault, schedule, amount, count, -, -, settled, -⟩ :=
      claimCatchupVesting_settled env id s _ _ ran
    exact settled.others other
  | claimWithBonus =>
    obtain ⟨vault, schedule, amount, count, -, -, settled⟩ :=
      claimWithBonus_settled env id s _ _ ran
    exact settled.others other
  | initiateVestingClaim window =>
    obtain ⟨vault, schedule, -, -, -, rfl⟩ :=
      initiateVestingClaim_reserves env id s window _ _ ran
    exact ⟨withFirst_of_ne _ _ _ other, withPending_of_ne _ _ _ other⟩
  | finalizeVestingClaim =>
    obtain ⟨vault, pending, -, -, -, -, -, vesting, -⟩ :=
      finalizeVestingClaim_pays env id s _ _ ran
    rw [vesting]
    exact ⟨rfl, withPending_of_ne _ _ _ other⟩

end Steps

end EthosContracts.TtlVault
