/-
**Nothing vests before the cliff, as long as no claim with a reversal window is opened before it.**

The claims that pay at once check the cliff. `initiate_vesting_claim` does not, and
`finalize_vesting_claim` pays what it set aside.
-/

import EthosContracts.TtlVault.FirstSchedule
import EthosContracts.TtlVault.Installments

namespace EthosContracts.TtlVault

open Lib List

/-! ### The property -/

/-- The time before which nothing vests. -/
def VestingSchedule.cliff (schedule : VestingSchedule) : Nat :=
  schedule.startTime + schedule.cliffPeriod

variable (history : History) (id : VaultId)

/-- Something is paid from the vault, or set aside for its pending claim. -/
def TakesFirst (s t : State) : Prop :=
  t.paidFrom id ≠ s.paidFrom id ∨ t.pendingAmount id ≠ s.pendingAmount id

instance TakesFirst.decidable (id : VaultId) (s t : State) : Decidable (TakesFirst id s t) :=
  inferInstanceAs (Decidable (_ ∨ _))

/-- Something of a schedule is paid or set aside. To take from another one than the first, a call
would have to change its record or its pending claim. -/
def Takes (index : Nat) (s t : State) : Prop :=
  if index = 0 then TakesFirst id s t
  else t.vesting.schedule id index ≠ s.vesting.schedule id index ∨
    t.vesting.pendingClaim id index ≠ s.vesting.pendingClaim id index

/-- A schedule that was attached to the vault before one of the events. -/
def WasAttached (index : Nat) (schedule : VestingSchedule) : Prop :=
  ∃ event ∈ history, event.before.vesting.schedule id index = some schedule

/-- No claim pays or sets aside anything of a schedule before its cliff, along a run. -/
def NothingBeforeCliff : Prop :=
  ∀ earlier event later id index schedule, history = earlier ++ event :: later →
    ClaimingCall id event.input.call → WasAttached (earlier ++ [event]) id index schedule →
    Takes id index event.before event.after → schedule.cliff ≤ event.input.env.now

def OpensAfterCliff (env : Env) (s : State) : Call → Prop
  | .record (.initiateVestingClaim id _) =>
    ∀ vault ∈ s.vaults id, ∀ schedule ∈ s.vesting.schedule id 0,
      claimAmount vault schedule (schedule.unlocked env.now) = 0 ∨ schedule.cliff ≤ env.now
  | _ => True

instance OpensAfterCliff.decidable (env : Env) (s : State) (call : Call) :
    Decidable (OpensAfterCliff env s call) := by
  unfold OpensAfterCliff
  split <;> infer_instance

/-! ### One cliff -/

/-- All first schedules seen so far have one cliff; their index is taken, and what is pending can
only be paid after that cliff. -/
structure OneCliff (seen : VestingSchedule → Prop) (cliff : Nat) (v : FirstVesting) : Prop where
  current : ∀ schedule, v.schedule = some schedule → seen schedule
  same : ∀ schedule, seen schedule → schedule.cliff = cliff
  taken : ∀ schedule, seen schedule → v.count ≠ 0
  opened : ∀ claim, v.pending = some claim →
    (∃ schedule, seen schedule) ∧ (claim.amount = 0 ∨ cliff ≤ claim.reversalDeadline)

section OneCliff

variable {seen : VestingSchedule → Prop} {cliff : Nat} {v w : FirstVesting}
  {opens : VestingSchedule → VestingPendingClaim → Prop}

theorem OneCliff.keep (one : OneCliff seen cliff v)
    (current : ∀ schedule, w.schedule = some schedule → schedule.cliff = cliff)
    (taken : ∀ schedule, (w.schedule = some schedule ∨ seen schedule) → w.count ≠ 0)
    (opened : ∀ claim, w.pending = some claim →
      (∃ schedule, seen schedule) ∧ (claim.amount = 0 ∨ cliff ≤ claim.reversalDeadline)) :
    OneCliff (fun schedule => w.schedule = some schedule ∨ seen schedule) cliff w where
  current _ stored := .inl stored
  same schedule seenNow := by
    rcases seenNow with stored | before
    · exact current schedule stored
    · exact one.same schedule before
  taken := taken
  opened claim pending := by
    obtain ⟨⟨schedule, before⟩, safe⟩ := opened claim pending
    exact ⟨⟨schedule, .inr before⟩, safe⟩

theorem OneCliff.step (one : OneCliff seen cliff v) (stepped : FirstVesting.Step opens v w)
    (safe : ∀ schedule claim, v.schedule = some schedule → opens schedule claim →
      claim.amount = 0 ∨ schedule.cliff ≤ claim.reversalDeadline) :
    ∃ later, OneCliff (fun schedule => w.schedule = some schedule ∨ seen schedule) later w := by
  have stored : ∀ schedule, v.schedule = some schedule → schedule.cliff = cliff :=
    fun schedule found => one.same schedule (one.current schedule found)
  have taken : ∀ schedule, (v.schedule = some schedule ∨ seen schedule) → v.count ≠ 0 := by
    rintro schedule (found | before)
    · exact one.taken schedule (one.current schedule found)
    · exact one.taken schedule before
  cases stepped with
  | idle => exact ⟨cliff, one.keep stored taken one.opened⟩
  | @attach first pending schedule =>
    -- nothing has been seen: the index was free
    have unseen : ∀ old, ¬ seen old := fun old before => one.taken old before rfl
    refine ⟨schedule.cliff, fun _ stored => .inl stored, ?_, fun _ _ => by simp, ?_⟩
    · rintro old (stored | before)
      · obtain rfl := Option.some.inj stored
        rfl
      · exact absurd before (unseen old)
    · intro claim waiting
      obtain ⟨⟨old, before⟩, -⟩ := one.opened claim waiting
      exact absurd before (unseen old)
  | attachAnother =>
    exact ⟨cliff, one.keep stored (fun _ _ => by simp) one.opened⟩
  | @claim count schedule =>
    refine ⟨cliff, one.keep ?_ (fun _ _ => taken schedule (.inl rfl)) one.opened⟩
    intro _ found
    obtain rfl := Option.some.inj found
    exact stored schedule rfl
  | cancel =>
    refine ⟨cliff, one.keep (by simp) ?_ one.opened⟩
    rintro schedule (found | before)
    · cases found
    · exact taken schedule (.inr before)
  | @initiate count schedule claim claimed opened =>
    refine ⟨cliff, one.keep ?_ (fun _ _ => taken schedule (.inl rfl)) ?_⟩
    · intro _ found
      obtain rfl := Option.some.inj found
      exact stored schedule rfl
    · intro _ waiting
      obtain rfl := Option.some.inj waiting
      refine ⟨⟨schedule, one.current schedule rfl⟩, ?_⟩
      rw [← stored schedule rfl]
      exact safe schedule claim rfl opened
  | reverse =>
    refine ⟨cliff, one.keep ?_ ?_ (by simp)⟩
    · intro _ found
      obtain ⟨schedule, was, rfl⟩ := Option.map_eq_some_iff.mp found
      exact stored schedule was
    · rintro _ (found | before)
      · obtain ⟨schedule, was, -⟩ := Option.map_eq_some_iff.mp found
        exact taken schedule (.inl was)
      · exact taken _ (.inr before)
  | finalize => exact ⟨cliff, one.keep stored taken (by simp)⟩

end OneCliff

/-! ### Runs -/

/-- The schedule is stored, or was attached before. -/
def Seen (s : State) (id : VaultId) (schedule : VestingSchedule) : Prop :=
  s.vesting.schedule id 0 = some schedule ∨ WasAttached history id 0 schedule

theorem wasAttached_snoc (event : VaultEvent) (id : VaultId)
    (schedule : VestingSchedule) : WasAttached (history ++ [event]) id 0 schedule ↔ Seen history
    event.before id schedule := by
  unfold Seen WasAttached
  simp only [mem_append, mem_singleton]
  constructor
  · rintro ⟨other, earlier | rfl, stored⟩
    · exact .inr ⟨other, earlier, stored⟩
    · exact .inl stored
  · rintro (stored | ⟨other, earlier, stored⟩)
    · exact ⟨event, .inr rfl, stored⟩
    · exact ⟨other, .inl earlier, stored⟩

section Runs

variable {host : Host} {xlmToken admin : Address} {ledger : Ledger Address Address}
  {history : History} {s t : State} {id : VaultId}

theorem run_oneCliff (run : ContractRun host (initialState xlmToken admin ledger) history s)
    (after : ∀ event ∈ history,
      OpensAfterCliff event.input.env event.before event.input.call) (id : VaultId) :
    ∃ cliff, OneCliff (Seen history s id) cliff (s.firstVesting id) := by
  induction run with
  | nil =>
    refine ⟨0, fun _ stored => .inl stored, ?_, ?_, fun _ stored => by cases stored⟩
    · rintro schedule (stored | ⟨event, member, -⟩)
      · cases stored
      · cases member
    · rintro schedule (stored | ⟨event, member, -⟩)
      · cases stored
      · cases member
  | @snoc front r u input run stepped ih =>
    obtain ⟨cliff, one⟩ := ih (forall_mem_concat.mp after).1
    have safe := after _ (mem_append_right front (mem_singleton.mpr rfl))
    obtain ⟨-, ran⟩ := stepped
    have moved := exec_vestingStep input.env input.call r _ _ ran id
    have seenNow : Seen (front ++ [⟨r, input, u⟩]) u id = fun schedule =>
        (u.firstVesting id).schedule = some schedule ∨ Seen front r id schedule := by
      funext schedule
      unfold Seen
      rw [wasAttached_snoc]
      rfl
    rw [seenNow]
    refine one.step moved ?_
    rintro schedule claim stored ⟨vault, window, called, found, rfl⟩
    simp only [called, OpensAfterCliff] at safe
    rcases safe vault found schedule stored with nothing | reached
    · exact .inl nothing
    · exact .inr (Nat.le_add_right_of_le reached)

variable {env : Env} {call : Call}

theorem initiateVestingClaim_takes {window : Nat} {vault : Vault} {schedule : VestingSchedule}
    (ran : initiateVestingClaim env id window s = .ok ((), t))
    (found : s.vaults id = some vault)
    (stored : s.vesting.schedule id 0 = some schedule) :
    TakesFirst id s t ↔ claimAmount vault schedule (schedule.unlocked env.now) ≠ 0 := by
  obtain ⟨v, sch, claimable, free, -, rfl⟩ :=
    initiateVestingClaim_reserves env id s window _ _ ran
  cases found.symm.trans claimable.found
  cases stored.symm.trans claimable.stored
  unfold TakesFirst State.pendingAmount
  rw [free]
  simp only [withPending_self, Option.map_some, Option.map_none, Option.getD_some,
    Option.getD_none, pendingClaimOf]
  exact or_iff_right (not_not.mpr rfl)

theorem ClaimingCall.not_takes (claiming : ClaimingCall id call)
    (ran : exec env call s = .ok ((), t)) {index : Nat} (other : index ≠ 0) :
    ¬ Takes id index s t := by
  obtain ⟨schedule, pending⟩ := claiming.others ran other
  unfold Takes
  rw [if_neg other]
  rintro (changed | changed)
  · exact changed schedule
  · exact changed pending

theorem ClaimingCall.reached {seen : VestingSchedule → Prop} {cliff : Nat}
    (claiming : ClaimingCall id call) (ran : exec env call s = .ok ((), t))
    (one : OneCliff seen cliff (s.firstVesting id)) (safe : OpensAfterCliff env s call)
    (takes : TakesFirst id s t) : cliff ≤ env.now := by
  -- the cliff of the schedule that is stored now is the cliff of all of them
  have current : ∀ now, s.vesting.schedule id 0 = some now → now.cliff ≤ env.now →
      cliff ≤ env.now := by
    intro now stored reached
    rw [← one.same now (one.current now stored)]
    exact reached
  cases claiming with
  | claimVestedInstallment =>
    obtain ⟨vault, now, amount, count, claimable, reached, -, -⟩ :=
      claimVestedInstallment_settled env id s _ _ ran
    exact current now claimable.stored reached
  | claimCatchupVesting =>
    obtain ⟨vault, now, amount, count, claimable, reached, -, -⟩ :=
      claimCatchupVesting_settled env id s _ _ ran
    exact current now claimable.stored reached
  | claimWithBonus =>
    obtain ⟨vault, now, amount, count, claimable, reached, -⟩ :=
      claimWithBonus_settled env id s _ _ ran
    exact current now claimable.stored reached
  | initiateVestingClaim window =>
    obtain ⟨vault, now, claimable, -, -, -⟩ :=
      initiateVestingClaim_reserves env id s window _ _ ran
    have nonzero := (initiateVestingClaim_takes ran claimable.found claimable.stored).mp takes
    rcases safe vault claimable.found now claimable.stored with zero | reached
    · exact absurd zero nonzero
    · exact current now claimable.stored reached
  | finalizeVestingClaim =>
    obtain ⟨vault, pending, -, waiting, closed, -, -, vesting, paid⟩ :=
      finalizeVestingClaim_pays env id s _ _ ran
    have nonzero : pending.amount ≠ 0 := by
      intro zero
      unfold TakesFirst State.pendingAmount at takes
      rw [vesting, waiting, paid, zero] at takes
      simp [zero] at takes
    rcases (one.opened pending waiting).2 with zero | late
    · exact absurd zero nonzero
    · omega

/-- **Nothing vests before the cliff exactly if no claim is opened before it.** In every run from
the deployment: none of the five calls pays anything of a schedule, or sets anything aside, before
its cliff, if and only if every `initiate_vesting_claim` comes at or after the cliff of the schedule
it finds, or has nothing to set aside. -/
theorem nothing_before_cliff_iff
    (run : ContractRun host (initialState xlmToken admin ledger) history s) :
    NothingBeforeCliff history ↔
      ∀ event ∈ history, OpensAfterCliff event.input.env event.before event.input.call := by
  constructor
  · intro nothing event member
    obtain ⟨-, ran⟩ := run.stepped event member
    unfold OpensAfterCliff
    split
    · rename_i id window called
      intro vault found schedule stored
      rw [called] at ran
      by_cases zero : claimAmount vault schedule (schedule.unlocked event.input.env.now) = 0
      · exact .inl zero
      · right
        obtain ⟨earlier, later, whole⟩ := append_of_mem member
        refine nothing earlier event later id 0 schedule whole
          (called ▸ .initiateVestingClaim window) ((wasAttached_snoc _ _ _ _).mpr (.inl stored)) ?_
        exact (initiateVestingClaim_takes ran found stored).mpr zero
    · trivial
  · intro after earlier event later id index schedule whole call attached takes
    obtain ⟨before, ⟨-, ran⟩, -⟩ := run.at_split whole
    by_cases first : index = 0
    swap
    · exact absurd takes (call.not_takes ran first)
    subst first
    have member : event ∈ history := whole ▸ mem_append_cons_self
    obtain ⟨cliff, one⟩ := run_oneCliff before
      (fun other mem => after other (whole ▸ mem_append_left _ mem)) id
    rw [one.same schedule ((wasAttached_snoc _ _ _ _).mp attached)]
    exact call.reached ran one (after event member) takes

end Runs

/-! ### A claim opened before the cliff -/

def cliffVault : Scenario :=
  [(1000, ⟨3⟩, .createVault ⟨3⟩ ⟨4⟩ 600 none), (1001, ⟨3⟩, .deposit 1 ⟨3⟩ 100),
    (1002, ⟨3⟩, .record (.setVestingSchedule 1 ⟨3⟩ 2000 1000 10 100 5000)),
    (2000, ⟨3⟩, .triggerRelease 1)]

def openedAfter : List Invocation :=
  plainInputs (cliffVault ++
    [(7000, ⟨4⟩, .record (.initiateVestingClaim 1 10)), (7011, ⟨4⟩, .finalizeVestingClaim 1)])

theorem nothing_before_cliff_openedAfter :
    let run := replay fundedState openedAfter
    run.1.length = 6 ∧ run.2.paidFrom 1 = 60 ∧ NothingBeforeCliff run.1 :=
  ⟨by decide +kernel, by decide +kernel,
    (nothing_before_cliff_iff (plainInputs_run _)).mpr (by decide +kernel)⟩

def openedBefore : List Invocation :=
  plainInputs (cliffVault ++ [(2001, ⟨4⟩, .record (.initiateVestingClaim 1 10))])

def earlyPayment : VaultEvent :=
  nextEvent fundedState openedBefore ⟨plainEnv 2012 [], .finalizeVestingClaim 1⟩

/-- An installment is paid at 2012, with the cliff at 7000. -/
theorem pays_before_cliff :
    PlainRun ((replay fundedState openedBefore).1 ++ [earlyPayment]) earlyPayment.after ∧
      (earlyPayment.before.vesting.schedule 1 0).map (·.cliff) = some 7000 ∧
      earlyPayment.after.paidFrom 1 = 10 ∧
      ¬ NothingBeforeCliff ((replay fundedState openedBefore).1 ++ [earlyPayment]) := by
  have cliff : (earlyPayment.before.vesting.schedule 1 0).map (·.cliff) = some 7000 := by
    decide +kernel
  obtain ⟨schedule, stored, cliffEq⟩ := Option.map_eq_some_iff.mp cliff
  have takes : TakesFirst 1 earlyPayment.before earlyPayment.after := by decide +kernel
  refine ⟨.snoc (plainInputs_run _) ⟨rfl, rfl⟩, cliff, by decide +kernel, ?_⟩
  intro nothing
  have late : schedule.cliff ≤ 2012 := nothing _ earlyPayment [] 1 0 schedule rfl
    .finalizeVestingClaim ((wasAttached_snoc _ _ _ _).mpr (.inl stored)) takes
  omega

end EthosContracts.TtlVault
