/-
**Several schedules on one vault disturb each other.**

A vault may carry up to twenty schedules, but every claim is a claim of the first one, the claim
that completes it pays the whole balance, and a release waits for the first one only.
-/

import EthosContracts.Lib.Slices
import EthosContracts.TtlVault.FirstSchedule
import EthosContracts.TtlVault.Undo

namespace EthosContracts.TtlVault

open Lib Function List

/-! ### Attached schedules -/

/-- A schedule as `set_vesting_schedule` leaves it. -/
structure VestingSchedule.Fresh (schedule : VestingSchedule) : Prop where
  unclaimed : schedule.claimedInstallments = 0
  pos : 0 < schedule.totalAmount
  interval : schedule.interval ≠ 0
  installments : schedule.numInstallments ≠ 0

/-- A locked vault with these schedules, of which nothing has been claimed. -/
structure Attached (id : VaultId) (vault : Vault) (schedules : List VestingSchedule)
    (s : State) : Prop where
  found : s.vaults id = some vault
  locked : vault.status = .locked
  count : s.vesting.scheduleCount id = schedules.length
  stored : ∀ index, s.vesting.schedule id index = schedules[index]?
  fresh : ∀ schedule ∈ schedules, schedule.Fresh
  covered : (schedules.map (·.totalAmount)).sum ≤ vault.balance
  settled : s.vesting.pendingClaim id 0 = none

section Attach

variable {id : VaultId} {vault : Vault} {schedules : List VestingSchedule} {s : State}

theorem Attached.storedSchedules (attached : Attached id vault schedules s) :
    storedSchedules s id = schedules := by
  unfold TtlVault.storedSchedules
  rw [attached.count]
  have lookup : s.vesting.schedule id = fun index => schedules[index]? :=
    funext attached.stored
  rw [lookup, range_eq_range', filterMap_getElem?_range', drop_zero, take_length]

theorem sumScheduled_spec (schedules : List VestingSchedule) : ∀ (total : Int) (s : State),
    (sumScheduled schedules total).wp s fun sum t =>
      t = s ∧ sum = total + (schedules.map (·.totalAmount)).sum := by
  induction schedules with
  | nil =>
    intro total s
    simp [sumScheduled]
  | cons schedule rest ih =>
    intro total s
    simp only [sumScheduled, wp_rules]
    intro _
    refine (ih _ s).mono ?_
    rintro sum t ⟨rfl, rfl⟩
    refine ⟨rfl, ?_⟩
    rw [map_cons, sum_cons]
    omega

theorem setVestingSchedule_attached (attached : Attached id vault schedules s) (env : Env)
    (caller : Address) (startTime interval numInstallments : Nat) (amount : Int)
    (cliffPeriod : Nat) :
    (setVestingSchedule env id caller startTime interval numInstallments amount
      cliffPeriod).wp s fun _ t => Attached id vault
        (schedules ++ [⟨startTime, interval, numInstallments, 0, amount, cliffPeriod⟩]) t := by
  simp only [setVestingSchedule, setSchedule, wp_rules]
  intro _ _ v found _ _ terms _ _ _ _ pos
  cases attached.found.symm.trans found
  rw [attached.storedSchedules]
  refine (sumScheduled_spec schedules amount s).mono ?_
  rintro total t ⟨rfl, rfl⟩ enough _
  refine ⟨attached.found, attached.locked, ?_, ?_, ?_, ?_, attached.settled⟩
  · simp [attached.count]
  · intro index
    simp only [update_self, attached.count]
    by_cases new : index = schedules.length
    · rw [new, update_self, List.getElem?_concat_length]
    · rw [update_of_ne new, attached.stored]
      rcases Nat.lt_or_gt_of_ne new with inside | beyond
      · rw [List.getElem?_append_left inside]
      · rw [List.getElem?_eq_none beyond.le, List.getElem?_eq_none]
        rw [length_append, length_singleton]
        omega
  · exact forall_mem_concat.mpr ⟨attached.fresh, rfl, pos, terms.1, terms.2⟩
  · rw [map_append, sum_append, map_singleton, sum_singleton]
    show (schedules.map (·.totalAmount)).sum + amount ≤ vault.balance
    omega

end Attach

/-! ### Isolation -/

/-- The release and the claims on one vault. -/
inductive PayingCall (id : VaultId) : Call → Prop
  | triggerRelease : PayingCall id (.triggerRelease id)
  | claim {call} (claiming : ClaimingCall id call) : PayingCall id call

variable (host : Host) (id : VaultId)

/-- A run of such calls. -/
def PayingRun (s : State) (history : History) (t : State) : Prop :=
  ContractRun host s history t ∧ ∀ event ∈ history, PayingCall id event.input.call

/-- A run of cancellations of schedules. -/
def CancellingRun (s : State) (history : History) (t : State) : Prop :=
  ContractRun host s history t ∧ ∀ event ∈ history, ∃ scheduleId caller,
    event.input.call = .cancelVestingSchedule id scheduleId caller

/-- All installments are claimed, and no claim is pending. -/
def Completed (index : Nat) (s : State) : Prop :=
  (∃ schedule, s.vesting.schedule id index = some schedule ∧
    schedule.numInstallments ≤ schedule.claimedInstallments) ∧
  s.vesting.pendingClaim id index = none

def Vault.payee (vault : Vault) : Address :=
  (vault.beneficiaries.head?.map (·.address)).getD vault.beneficiary

/-- The contract is running, and the balance of the vault can be paid. -/
structure PaysOut (env : Env) (id : VaultId) (vault : Vault) (s : State) : Prop where
  found : s.vaults id = some vault
  released : vault.status = .released
  running : s.config.paused = false
  inTime : env.now + 2 ≤ maxU64
  compliant : checkCompliance env s vault.payee = true
  funded : (s.ledger.transfer vault.tokenAddress env.self vault.payee vault.balance).isSome = true

/-- **The schedules of a vault do not disturb each other**: completing one takes at most its own
total, each can be completed once its installments are unlocked, and while one is attached a release
keeps the balance in the vault. -/
structure Isolated (host : Host) (id : VaultId) (vault : Vault)
    (schedules : List VestingSchedule) (s : State) : Prop where
  /-- Every claim is a claim of schedule 0, so that the balance measures what is paid of it. -/
  ownTotal : ∀ index schedule history t, schedules[index]? = some schedule →
    PayingRun host id s history t → Completed id index t →
    vault.balance - t.balance id ≤ schedule.totalAmount
  /-- The counter of the installments reaches their number. -/
  claimable : ∀ index schedule history r env current, schedules[index]? = some schedule →
    PayingRun host id s history r → r.vesting.pendingClaim id 0 = none →
    env.toHost = host → schedule.unlocked env.now = schedule.numInstallments →
    PaysOut env id current r →
    ∃ further t, PayingRun host id r further t ∧ Completed id index t
  kept : ∀ history r env t, CancellingRun host id s history r →
    (∃ index, (r.vesting.schedule id index).isSome = true) → env.toHost = host →
    exec env (.triggerRelease id) r = .ok ((), t) → t.balance id = r.balance id

/-- Nothing is attached, or one schedule of the whole balance, and no release refunds a beneficiary
who missed the deadline to accept. -/
def CoversBalance (vault : Vault) (schedules : List VestingSchedule) (s : State) : Prop :=
  schedules = [] ∨ ∃ schedule, schedules = [schedule] ∧ schedule.totalAmount = vault.balance ∧
    ∀ env t, env.toHost = host → exec env (.triggerRelease id) s = .ok ((), t) →
      acceptanceMissed env (s.beneficiaries.conditionalAcceptance id) = false

/-- The vault can be released, and pays once everything is unlocked. -/
def CanBePaid (schedules : List VestingSchedule) (s : State) : Prop :=
  ∃ env r later vault, env.toHost = host ∧ exec env (.triggerRelease id) s = .ok ((), r) ∧
    later.toHost = host ∧ PaysOut later id vault r ∧
    ∀ schedule ∈ schedules, schedule.unlocked later.now = schedule.numInstallments

section Steps

variable {env : Env} {id : VaultId} {s t : State} {schedule : VestingSchedule}

variable {vault : Vault} {call : Call}

theorem State.balance_of_found (found : s.vaults id = some vault) :
    s.balance id = vault.balance := by
  unfold State.balance
  rw [found]
  rfl

theorem triggerRelease_waits (stored : (s.vesting.schedule id 0).isSome = true) :
    (triggerRelease env id).wp s fun _ t => ∃ vault, s.vaults id = some vault ∧
      ((acceptanceMissed env (s.beneficiaries.conditionalAcceptance id) = true ∧
          t.vaults id = some { vault with balance := 0, status := .cancelled }) ∨
        (acceptanceMissed env (s.beneficiaries.conditionalAcceptance id) = false ∧
          t.vaults id = some { rotatedVault env id s vault with status := .released })) := by
  refine triggerReleaseInternal_wp env id .expiry ?refund ?wait ?pay
  case refund =>
    intro vault found _ missed
    simp only [refundMissedAcceptance, wp_rules]
    intro after moved
    exact ⟨vault, found, .inl ⟨missed, update_self _ _ _⟩⟩
  case wait =>
    intro vault found _ inTime _
    simp only [wp_rules]
    exact ⟨vault, found, .inr ⟨inTime, update_self _ _ _⟩⟩
  case pay =>
    intro vault found _ _ none
    simp [hasVesting, stored] at none

/-- The first schedule keeps its terms, and the balance is not negative. -/
structure Underway (id : VaultId) (schedule : VestingSchedule) (s : State) : Prop where
  stored : ∃ count, s.vesting.schedule id 0 = some (schedule.claimedUpTo count)
  funded : ∃ vault, s.vaults id = some vault ∧ 0 ≤ vault.balance

theorem Settled.underway {current : VestingSchedule} {amount : Int} {count : Nat}
    (settled : Settled id vault current amount count s t)
    (claimable : Claimable env id vault current s) (underway : Underway id schedule s) :
    Underway id schedule t := by
  obtain ⟨before, stored⟩ := underway.stored
  cases stored.symm.trans claimable.stored
  refine ⟨⟨count, ?_⟩, ⟨{ vault with balance := vault.balance - amount }, ?_, ?_⟩⟩
  · rw [settled.schedule]
    exact withFirst_self _ _ _
  · rw [settled.vaults]
    exact update_self _ _ _
  · have covered := settled.covered
    show 0 ≤ vault.balance - amount
    omega

theorem PayingCall.underway (paying : PayingCall id call)
    (ran : exec env call s = .ok ((), t)) (underway : Underway id schedule s) :
    Underway id schedule t := by
  obtain ⟨before, stored⟩ := underway.stored
  obtain ⟨vault, found, nonneg⟩ := underway.funded
  cases paying with
  | triggerRelease =>
    have books := exec_claimBooks env (.triggerRelease id) rfl s _ _ ran
    have same : t.vesting.schedule = s.vesting.schedule := congrArg ClaimBooks.schedule books
    refine ⟨⟨before, by rw [same, stored]⟩, ?_⟩
    have isStored : (s.vesting.schedule id 0).isSome = true := by
      rw [stored]
      rfl
    obtain ⟨v, foundV, refunded | waiting⟩ := triggerRelease_waits isStored _ _ ran
    · exact ⟨_, refunded.2, le_rfl⟩
    · cases found.symm.trans foundV
      exact ⟨_, waiting.2, nonneg⟩
  | claim claiming =>
    cases claiming with
    | claimVestedInstallment =>
      obtain ⟨v, current, amount, count, claimable, -, settled, -⟩ :=
        claimVestedInstallment_settled env id s _ _ ran
      exact settled.underway claimable underway
    | claimCatchupVesting =>
      obtain ⟨v, current, amount, count, claimable, -, settled, -⟩ :=
        claimCatchupVesting_settled env id s _ _ ran
      exact settled.underway claimable underway
    | claimWithBonus =>
      obtain ⟨v, current, amount, count, claimable, -, settled⟩ :=
        claimWithBonus_settled env id s _ _ ran
      exact settled.underway claimable underway
    | initiateVestingClaim window =>
      obtain ⟨v, current, claimable, -, -, rfl⟩ :=
        initiateVestingClaim_reserves env id s window _ _ ran
      cases stored.symm.trans claimable.stored
      exact ⟨⟨_, withFirst_self _ _ _⟩, ⟨vault, found, nonneg⟩⟩
    | finalizeVestingClaim =>
      obtain ⟨v, pending, -, -, -, covered, vaults, vesting, -⟩ :=
        finalizeVestingClaim_pays env id s _ _ ran
      refine ⟨⟨before, ?_⟩, ⟨{ v with balance := v.balance - pending.amount }, ?_, ?_⟩⟩
      · rw [vesting]
        exact stored
      · rw [vaults]
        exact update_self _ _ _
      · show 0 ≤ v.balance - pending.amount
        omega

theorem PayingCall.others (paying : PayingCall id call)
    (ran : exec env call s = .ok ((), t)) {index : Nat} (other : index ≠ 0) :
    t.vesting.schedule id index = s.vesting.schedule id index := by
  cases paying with
  | triggerRelease =>
    have books := exec_claimBooks env (.triggerRelease id) rfl s _ _ ran
    have same : t.vesting.schedule = s.vesting.schedule := congrArg ClaimBooks.schedule books
    rw [same]
  | claim claiming => exact (claiming.others ran other).1

theorem cancelVestingSchedule_removes (scheduleId : Nat) (caller : Address) :
    (cancelVestingSchedule env id scheduleId caller).wp s fun _ t =>
      (s.vesting.schedule id scheduleId).isSome = true ∧
      t.vesting.schedule id = update (s.vesting.schedule id) scheduleId none := by
  simp only [cancelVestingSchedule, setSchedule, wp_rules]
  intro _ vault _ _ schedule stored _ _
  refine ⟨?_, update_self _ _ _⟩
  rw [stored]
  rfl

end Steps

section Runs

variable {host : Host} {id : VaultId} {s r t : State} {history : History}
  {schedule : VestingSchedule}

theorem PayingRun.underway (run : PayingRun host id s history t)
    (underway : Underway id schedule s) : Underway id schedule t := by
  refine run.1.invariant (Underway id schedule) (fun _ input => PayingCall id input.call)
    underway ?_ run.2
  intro s input t before paying stepped
  exact paying.underway stepped.2 before

theorem PayingRun.others (run : PayingRun host id s history t) {index : Nat}
    (other : index ≠ 0) :
    t.vesting.schedule id index = s.vesting.schedule id index := by
  refine run.1.invariant
    (fun t => t.vesting.schedule id index = s.vesting.schedule id index)
    (fun _ input => PayingCall id input.call) rfl ?_ run.2
  intro s input t before paying stepped
  exact (paying.others stepped.2 other).trans before

theorem CancellingRun.only (run : CancellingRun host id s history r)
    (only : ∀ index, index ≠ 0 → s.vesting.schedule id index = none) :
    (∀ index, r.vesting.schedule id index = none) ∨ r = s := by
  refine run.1.invariant (fun r => (∀ index, r.vesting.schedule id index = none) ∨ r = s)
    (fun _ input => ∃ scheduleId caller,
      input.call = .cancelVestingSchedule id scheduleId caller) (.inr rfl) ?_ run.2
  rintro r ⟨env, call⟩ t before ⟨scheduleId, caller, rfl⟩ ⟨-, ran⟩
  obtain ⟨stored, removed⟩ := cancelVestingSchedule_removes scheduleId caller _ _ ran
  rcases before with none | rfl
  · rw [none] at stored
    cases stored
  · have first : scheduleId = 0 := by
      by_contra other
      rw [only scheduleId other] at stored
      cases stored
    left
    intro index
    rw [removed, first]
    by_cases same : index = 0
    · rw [same, update_self]
    · rw [update_of_ne same]
      exact only index same

variable {env : Env} {vault : Vault} {current : VestingSchedule}

theorem initiateVestingClaim_succeeds
    {window : Nat} (claimable : Claimable env id vault current r)
    (running : r.config.paused = false) (pos : window ≠ 0)
    (free : r.vesting.pendingClaim id 0 = none) (interval : current.interval ≠ 0)
    (unlocked : current.unlocked env.now = current.numInstallments)
    (room : env.now + window ≤ maxU64) :
    (initiateVestingClaim env id window).succeeds r fun _ _ => True := by
  have started := claimable.started
  have remaining := claimable.remaining
  have periods : (env.now - current.startTime) / current.interval ≤ env.now :=
    (Nat.div_le_self _ _).trans (Nat.sub_le _ _)
  rw [VestingSchedule.unlocked, if_neg (by omega), Nat.min_comm] at unlocked
  simp only [initiateVestingClaim, loadClaimable, unlockedInstallments, baseAmount, setSchedule,
    setPendingClaim, succeeds_rules]
  refine ⟨running, pos, Option.isNone_iff_eq_none.mpr free, vault, claimable.found,
    claimable.released, current, claimable.stored, remaining, started, interval, ?_, ?_, ?_, ?_⟩
  · omega
  · omega
  · omega
  · rw [if_pos unlocked.ge, succeeds_pure]
    exact ⟨room, trivial⟩

theorem finalizeVestingClaim_succeeds {pending : VestingPendingClaim}
    (found : r.vaults id = some vault)
    (waiting : r.vesting.pendingClaim id 0 = some pending)
    (running : r.config.paused = false) (closed : pending.reversalDeadline < env.now)
    (whole : pending.amount = vault.balance)
    (compliant : checkCompliance env r pending.beneficiary = true)
    (funded : (r.ledger.transfer vault.tokenAddress env.self pending.beneficiary
      pending.amount).isSome = true) :
    (finalizeVestingClaim env id).succeeds r fun _ _ => True := by
  obtain ⟨after, moved⟩ := Option.isSome_iff_exists.mp funded
  simp only [finalizeVestingClaim, requireAmlCompliant, setPendingClaim, succeeds_rules]
  refine ⟨running, pending, waiting, closed, vault, found, whole.le, compliant, after, moved, ?_,
    trivial⟩
  rw [whole, sub_self]
  decide

theorem claim_in_full (pays : PaysOut env id vault r)
    (stored : r.vesting.schedule id 0 = some current)
    (left : current.claimedInstallments < current.numInstallments)
    (interval : current.interval ≠ 0)
    (unlocked : current.unlocked env.now = current.numInstallments)
    (free : r.vesting.pendingClaim id 0 = none) :
    ∃ history t, PayingRun env.toHost id r history t ∧ Completed id 0 t ∧ t.balance id = 0 := by
  have started : current.startTime ≤ env.now := by
    by_contra early
    rw [VestingSchedule.unlocked, if_pos (by omega)] at unlocked
    omega
  have claimable : Claimable env id vault current r :=
    ⟨pays.found, pays.released, stored, left, started⟩
  have inTime := pays.inTime
  obtain ⟨_, reserved, opened, -⟩ := initiateVestingClaim_succeeds claimable pays.running one_ne_zero
    free interval unlocked (by omega)
  obtain ⟨v, sch, again, -, -, reservedEq⟩ :=
    initiateVestingClaim_reserves env id r 1 _ _ opened
  cases pays.found.symm.trans again.found
  cases stored.symm.trans again.stored
  -- two seconds later the window is closed
  let later : Env := { env with now := env.now + 2 }
  have found : reserved.vaults id = some vault := by
    rw [reservedEq]
    exact pays.found
  have waiting : reserved.vesting.pendingClaim id 0 =
      some (pendingClaimOf env vault current 1) := by
    rw [reservedEq]
    exact withPending_self _ _ _
  have whole : (pendingClaimOf env vault current 1).amount = vault.balance := by
    show claimAmount vault current (current.unlocked env.now) = vault.balance
    rw [claimAmount, if_pos unlocked.ge]
  have finalizes : (finalizeVestingClaim later id).succeeds reserved fun _ _ => True := by
    refine finalizeVestingClaim_succeeds found waiting ?_ (Nat.lt_succ_self _) whole ?_ ?_
    · rw [reservedEq]
      exact pays.running
    · rw [reservedEq]
      exact pays.compliant
    · rw [whole, reservedEq]
      exact pays.funded
  obtain ⟨_, t, paid, -⟩ := finalizes
  obtain ⟨w, pending, foundAgain, waitingAgain, -, -, vaults, vesting, -⟩ :=
    finalizeVestingClaim_pays later id reserved _ _ paid
  cases found.symm.trans foundAgain
  cases waiting.symm.trans waitingAgain
  refine ⟨[⟨r, ⟨env, .record (.initiateVestingClaim id 1)⟩, reserved⟩,
    ⟨reserved, ⟨later, .finalizeVestingClaim id⟩, t⟩], t, ⟨?_, ?_⟩, ⟨?_, ?_⟩, ?_⟩
  · exact .snoc (.snoc .nil ⟨rfl, opened⟩) ⟨rfl, paid⟩
  · simp only [forall_mem_cons]
    exact ⟨.claim (.initiateVestingClaim 1), .claim .finalizeVestingClaim, by simp⟩
  · refine ⟨current.claimedUpTo (current.unlocked env.now), ?_, unlocked.ge⟩
    rw [vesting, reservedEq]
    exact withFirst_self _ _ _
  · rw [vesting]
    exact withPending_self _ _ _
  · rw [State.balance, vaults, update_self]
    show vault.balance - (pendingClaimOf env vault current 1).amount = 0
    rw [whole, sub_self]

end Runs

/-! ### When the schedules are isolated -/

section Main

variable {host : Host} {id : VaultId} {vault : Vault} {schedules : List VestingSchedule}
  {s r : State} {schedule : VestingSchedule}

variable {rest : List VestingSchedule}

theorem Attached.isSome_first (attached : Attached id vault (schedule :: rest) s) :
    (s.vesting.schedule id 0).isSome = true := by
  rw [attached.stored]
  rfl

theorem Attached.underway (attached : Attached id vault [schedule] s) : Underway id schedule s := by
  have fresh := attached.fresh schedule mem_cons_self
  have covered := attached.covered
  have pos := fresh.pos
  have same : schedule.claimedUpTo 0 = schedule := by
    rw [← fresh.unclaimed]
    rfl
  refine ⟨⟨0, ?_⟩, ⟨vault, attached.found, ?_⟩⟩
  · rw [attached.stored, same]
    rfl
  · rw [map_singleton, sum_singleton] at covered
    omega

theorem Attached.released {env : Env} (attached : Attached id vault schedules s)
    (ran : exec env (.triggerRelease id) s = .ok ((), r)) :
    (∀ index, r.vesting.schedule id index = schedules[index]?) ∧
      r.vesting.pendingClaim id 0 = none := by
  have books := exec_claimBooks env (.triggerRelease id) rfl s _ _ ran
  have schedule : r.vesting.schedule = s.vesting.schedule := congrArg ClaimBooks.schedule books
  have pending : r.vesting.pendingClaim = s.vesting.pendingClaim :=
    congrArg ClaimBooks.pendingClaim books
  rw [schedule, pending]
  exact ⟨attached.stored, attached.settled⟩

theorem isolated_nil (attached : Attached id vault [] s) : Isolated host id vault [] s where
  ownTotal index schedule history t listed := by simp at listed
  claimable index schedule history r env current listed := by simp at listed
  kept history r env t cancelled still := by
    have none : ∀ index, s.vesting.schedule id index = none := fun index => by
      simp [attached.stored]
    obtain ⟨index, stored⟩ := still
    rcases cancelled.only fun index _ => none index with gone | rfl
    · rw [gone] at stored
      cases stored
    · rw [none] at stored
      cases stored

theorem isolated_singleton (attached : Attached id vault [schedule] s)
    (total : schedule.totalAmount = vault.balance)
    (inTime : ∀ env t, env.toHost = host → exec env (.triggerRelease id) s = .ok ((), t) →
      acceptanceMissed env (s.beneficiaries.conditionalAcceptance id) = false) :
    Isolated host id vault [schedule] s where
  ownTotal index listed history t found run _ := by
    rw [List.getElem?_singleton] at found
    split at found
    · obtain rfl := Option.some.inj found
      obtain ⟨v, foundV, nonneg⟩ := (run.underway attached.underway).funded
      rw [State.balance_of_found foundV]
      omega
    · cases found
  claimable index listed history r env current found run free sameHost unlocked pays := by
    rw [List.getElem?_singleton] at found
    split at found
    · rename_i first
      obtain rfl := Option.some.inj found
      obtain ⟨count, stored⟩ := (run.underway attached.underway).stored
      rw [first]
      by_cases left : count < schedule.numInstallments
      · obtain ⟨further, t, paying, completed, -⟩ := claim_in_full pays stored left
          (attached.fresh schedule mem_cons_self).interval unlocked free
        rw [sameHost] at paying
        exact ⟨further, t, paying, completed⟩
      · exact ⟨[], r, ⟨.nil, by simp⟩, ⟨_, stored, Nat.not_lt.mp left⟩, free⟩
    · cases found
  kept history r env t cancelled still sameHost ran := by
    have only : ∀ index, index ≠ 0 → s.vesting.schedule id index = none := by
      intro index other
      rw [attached.stored, List.getElem?_singleton, if_neg other]
    rcases cancelled.only only with gone | rfl
    · obtain ⟨index, stored⟩ := still
      rw [gone] at stored
      cases stored
    · obtain ⟨v, found, refunded | waiting⟩ := triggerRelease_waits attached.isSome_first _ _ ran
      · rw [inTime env t sameHost ran] at refunded
        cases refunded.1
      · rw [State.balance_of_found waiting.2, State.balance_of_found found]
        rfl

theorem Isolated.no_second {second : VestingSchedule}
    (isolated : Isolated host id vault (schedule :: second :: rest) s)
    (attached : Attached id vault (schedule :: second :: rest) s)
    (payable : CanBePaid host id (schedule :: second :: rest) s) : False := by
  obtain ⟨env, r, later, current, sameHost, ran, laterHost, pays, unlocked⟩ := payable
  obtain ⟨stored, free⟩ := attached.released ran
  have listed : second ∈ schedule :: second :: rest := by simp
  have run : PayingRun host id s [⟨s, ⟨env, .triggerRelease id⟩, r⟩] r :=
    ⟨.snoc .nil ⟨sameHost, ran⟩, by simpa using PayingCall.triggerRelease⟩
  obtain ⟨further, t, paying, ⟨done, foundDone, all⟩, -⟩ :=
    isolated.claimable 1 second _ r later current rfl run free laterHost (unlocked second listed) pays
  rw [paying.others one_ne_zero, stored] at foundDone
  obtain rfl := Option.some.inj foundDone
  have fresh := attached.fresh second listed
  have nonzero := fresh.installments
  rw [fresh.unclaimed] at all
  omega

theorem Isolated.total (isolated : Isolated host id vault [schedule] s)
    (attached : Attached id vault [schedule] s)
    (payable : CanBePaid host id [schedule] s) : schedule.totalAmount = vault.balance := by
  obtain ⟨env, r, later, current, sameHost, ran, laterHost, pays, unlocked⟩ := payable
  obtain ⟨stored, free⟩ := attached.released ran
  have fresh := attached.fresh schedule mem_cons_self
  have nonzero := fresh.installments
  have unclaimed := fresh.unclaimed
  obtain ⟨further, t, paying, completed, empty⟩ := claim_in_full pays (stored 0) (by omega)
    fresh.interval (unlocked schedule mem_cons_self) free
  rw [laterHost] at paying
  have release : ContractRun host s [⟨s, ⟨env, .triggerRelease id⟩, r⟩] r :=
    .snoc .nil ⟨sameHost, ran⟩
  have run : PayingRun host id s (⟨s, ⟨env, .triggerRelease id⟩, r⟩ :: further) t := by
    refine ⟨release.append paying.1, ?_⟩
    rw [forall_mem_cons]
    exact ⟨.triggerRelease, paying.2⟩
  have own := isolated.ownTotal 0 schedule _ t rfl run completed
  have covered := attached.covered
  rw [map_singleton, sum_singleton] at covered
  rw [empty] at own
  omega

theorem Isolated.inTime (isolated : Isolated host id vault [schedule] s)
    (attached : Attached id vault [schedule] s) (env : Env) (t : State)
    (sameHost : env.toHost = host) (ran : exec env (.triggerRelease id) s = .ok ((), t)) :
    acceptanceMissed env (s.beneficiaries.conditionalAcceptance id) = false := by
  have kept := isolated.kept [] s env t ⟨.nil, by simp⟩ ⟨0, attached.isSome_first⟩ sameHost ran
  obtain ⟨v, found, refunded | waiting⟩ := triggerRelease_waits attached.isSome_first _ _ ran
  · have covered := attached.covered
    have pos := (attached.fresh schedule mem_cons_self).pos
    rw [map_singleton, sum_singleton] at covered
    rw [State.balance_of_found refunded.2, State.balance_of_found attached.found] at kept
    have zero : 0 = vault.balance := kept
    omega
  · exact waiting.1

/-- **When the schedules of a vault do not disturb each other**: if nothing is attached, or one
schedule of the whole balance whose release refunds nobody; if the vault can be released and can
pay, in this case only. -/
theorem isolated_iff (attached : Attached id vault schedules s) :
    (CoversBalance host id vault schedules s → Isolated host id vault schedules s) ∧
    (CanBePaid host id schedules s →
      (Isolated host id vault schedules s ↔ CoversBalance host id vault schedules s)) := by
  have sufficient : CoversBalance host id vault schedules s →
      Isolated host id vault schedules s := by
    rintro (rfl | ⟨schedule, rfl, total, inTime⟩)
    · exact isolated_nil attached
    · exact isolated_singleton attached total inTime
  refine ⟨sufficient, fun payable => ⟨fun isolated => ?_, sufficient⟩⟩
  match schedules with
  | [] => exact .inl rfl
  | [schedule] =>
    exact .inr ⟨schedule, rfl, isolated.total attached payable, isolated.inTime attached⟩
  | schedule :: second :: rest => exact absurd payable (isolated.no_second attached)

end Main

/-! ### One schedule and two -/

def hundred : Vault := { newVault ⟨3⟩ ⟨4⟩ ⟨1⟩ 600 1000 with balance := 100 }

def hundredOpened : Scenario :=
  [(1000, ⟨3⟩, .createVault ⟨3⟩ ⟨4⟩ 600 none), (1000, ⟨3⟩, .createVault ⟨3⟩ ⟨5⟩ 600 none),
    (1001, ⟨3⟩, .deposit 1 ⟨3⟩ 100), (1001, ⟨3⟩, .deposit 2 ⟨3⟩ 100)]

theorem hundredOpened_attached : Attached 1 hundred [] (played hundredOpened).2 where
  found := rfl
  locked := rfl
  count := rfl
  stored _ := rfl
  fresh := by simp
  covered := by decide
  settled := rfl

def twoInstallments (amount : Int) : Call :=
  .record (.setVestingSchedule 1 ⟨3⟩ 2000 1000 2 amount 0)

def halves (amount : Int) : VestingSchedule := ⟨2000, 1000, 2, 0, amount, 0⟩

def oneSchedule : VaultEvent :=
  nextEvent fundedState (plainInputs hundredOpened) ⟨plainEnv 1002 [⟨3⟩], twoInstallments 100⟩

theorem oneSchedule_attached : Attached 1 hundred [halves 100] oneSchedule.after :=
  setVestingSchedule_attached hundredOpened_attached (plainEnv 1002 [⟨3⟩]) ⟨3⟩ _ _ _ _ _ _ _ rfl

theorem oneSchedule_canBePaid : CanBePaid plainHost 1 [halves 100] oneSchedule.after := by
  refine ⟨plainEnv 2000 [], _, plainEnv 3000 [], { hundred with status := .released }, rfl,
    rfl, rfl, ⟨?_, rfl, ?_, by decide, ?_, ?_⟩, by decide⟩
  · rfl
  · decide +kernel
  · decide +kernel
  · decide +kernel

theorem isolated_oneSchedule :
    (Isolated plainHost 1 hundred [halves 100] oneSchedule.after ↔
        CoversBalance plainHost 1 hundred [halves 100] oneSchedule.after) ∧
      Isolated plainHost 1 hundred [halves 100] oneSchedule.after := by
  have covers : CoversBalance plainHost 1 hundred [halves 100] oneSchedule.after :=
    .inr ⟨halves 100, rfl, rfl, fun _ _ _ _ => rfl⟩
  exact ⟨(isolated_iff oneSchedule_attached).2 oneSchedule_canBePaid,
    (isolated_iff oneSchedule_attached).1 covers⟩

def firstOfTwo : Scenario :=
  hundredOpened ++ [(1002, ⟨3⟩, twoInstallments 40)]

def twoSchedules : VaultEvent :=
  nextEvent fundedState (plainInputs firstOfTwo) ⟨plainEnv 1003 [⟨3⟩], twoInstallments 60⟩

theorem twoSchedules_attached : Attached 1 hundred [halves 40, halves 60] twoSchedules.after := by
  have first : Attached 1 hundred [halves 40] (played firstOfTwo).2 :=
    setVestingSchedule_attached hundredOpened_attached (plainEnv 1002 [⟨3⟩]) ⟨3⟩ _ _ _ _ _ _ _ rfl
  exact setVestingSchedule_attached first (plainEnv 1003 [⟨3⟩]) ⟨3⟩ _ _ _ _ _ _ _ rfl

def claimedFirst : List Invocation :=
  plainInputs [(2000, ⟨4⟩, .triggerRelease 1), (3000, ⟨4⟩, .claimVestedInstallment 1)]

def cancelledFirst : List Invocation :=
  plainInputs [(1500, ⟨3⟩, .cancelVestingSchedule 1 0 ⟨3⟩), (2000, ⟨4⟩, .triggerRelease 1)]

/-- The claim of a schedule of 40 pays 100, the 60 of the second one with them; and if the first one
is cancelled, a release pays everything although the second one is attached. -/
theorem schedules_disturb :
    PlainRun ((played firstOfTwo).1 ++ [twoSchedules]) twoSchedules.after ∧
      Attached 1 hundred [halves 40, halves 60] twoSchedules.after ∧
      (replay twoSchedules.after claimedFirst).2.paidFrom 1 = 100 ∧
      ((replay twoSchedules.after cancelledFirst).2.vesting.schedule 1 1).isSome = true ∧
      (replay twoSchedules.after cancelledFirst).2.balance 1 = 0 ∧
      ¬ Isolated plainHost 1 hundred [halves 40, halves 60] twoSchedules.after := by
  refine ⟨.snoc (plainInputs_run _) ⟨rfl, rfl⟩, twoSchedules_attached, rfl, rfl, rfl,
    fun isolated => ?_⟩
  have completed : Completed 1 0 (replay twoSchedules.after claimedFirst).2 :=
    ⟨⟨_, rfl, by decide⟩, rfl⟩
  have calls : ∀ event ∈ (replay twoSchedules.after claimedFirst).1,
      PayingCall 1 event.input.call := by
    intro event member
    rcases member with _ | ⟨_, _ | ⟨_, none⟩⟩
    · exact .triggerRelease
    · exact .claim .claimVestedInstallment
    · cases none
  have own := isolated.ownTotal 0 (halves 40) _ _ rfl
    ⟨plainInputs_run_from twoSchedules.after _, calls⟩ completed
  exact absurd own (by decide : ¬ (100 : Int) ≤ 40)

end EthosContracts.TtlVault
