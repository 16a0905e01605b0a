/-
**Every installment is paid at most once, as long as no claim is reversed behind another one.**

Five calls share the counter of claimed installments. Two claims pay at once; a claim with a
reversal window counts its installments first and pays them later, or puts the counter back to where
it was before. It is put back even if another claim has moved it in between.
-/

import Mathlib.Tactic.Ring
import EthosContracts.Lib.Meter
import EthosContracts.TtlVault.Call
import EthosContracts.TtlVault.Claims

namespace EthosContracts.TtlVault

open Lib Function List

/-! ### The calls and the property -/

/-- The calls that claim installments of a vault, or reverse a claim. -/
inductive InstallmentCall (id : VaultId) : Call → Prop
  | claimVestedInstallment : InstallmentCall id (.claimVestedInstallment id)
  | claimCatchupVesting : InstallmentCall id (.claimCatchupVesting id)
  | initiateVestingClaim (reversalWindowSeconds) :
      InstallmentCall id (.record (.initiateVestingClaim id reversalWindowSeconds))
  | reverseVestingClaim (caller) : InstallmentCall id (.record (.reverseVestingClaim id caller))
  | finalizeVestingClaim : InstallmentCall id (.finalizeVestingClaim id)

def State.pendingAmount (s : State) (id : VaultId) : Int :=
  ((s.vesting.pendingClaim id 0).map (·.amount)).getD 0

/-- A released vault with one schedule of which nothing has been claimed, without options. -/
structure NewlyVesting (id : VaultId) (vault : Vault) (schedule : VestingSchedule)
    (s : State) : Prop where
  found : s.vaults id = some vault
  released : vault.status = .released
  shares : (vault.beneficiaries.map (·.bps)).sum ≤ 10000
  stored : s.vesting.schedule id 0 = some schedule
  unclaimed : schedule.claimedInstallments = 0
  nonneg : 0 ≤ schedule.totalAmount
  settled : s.vesting.pendingClaim id 0 = none
  unmodified : s.Unmodified id

/-- While the last installment is locked, what has been paid since the start and what is pending are
covered by the unlocked installments. -/
def PaidOnce (id : VaultId) (schedule : VestingSchedule) (start s : State) (now : Nat) : Prop :=
  schedule.unlocked now < schedule.numInstallments →
    s.paidFrom id - start.paidFrom id + s.pendingAmount id ≤
      schedule.unlocked now * (schedule.totalAmount / schedule.numInstallments)

instance PaidOnce.decidable (id : VaultId) (schedule : VestingSchedule) (start s : State)
    (now : Nat) : Decidable (PaidOnce id schedule start s now) :=
  inferInstanceAs (Decidable (_ → _))

/-- A pending claim is reversed only while the counter is where the claim left it. -/
def OrderlyReversal (id : VaultId) (s : State) : Call → Prop
  | .record (.reverseVestingClaim _ _) =>
    ∀ pending ∈ s.vesting.pendingClaim id 0, ∀ schedule ∈ s.vesting.schedule id 0,
      schedule.claimedInstallments = pending.newInstallmentsClaimed
  | _ => True

instance OrderlyReversal.decidable (id : VaultId) (s : State) (call : Call) :
    Decidable (OrderlyReversal id s call) := by
  unfold OrderlyReversal
  split <;> infer_instance

/-! ### The vault as a meter -/

/-- The meter of a vault: how far its first schedule has been claimed, what it has paid since the
start, and the pending claim. -/
structure Metered (id : VaultId) (schedule : VestingSchedule) (start s : State) (m : Meter) :
    Prop where
  shares : ∀ vault ∈ s.vaults id, (vault.beneficiaries.map (·.bps)).sum ≤ 10000
  stored : s.vesting.schedule id 0 = some (schedule.claimedUpTo m.drawn)
  reserved : m.reserved = (s.vesting.pendingClaim id 0).map fun pending =>
    (pending.prevInstallmentsClaimed, pending.newInstallmentsClaimed)
  amount : ∀ pending ∈ s.vesting.pendingClaim id 0, pending.amount = schedule.perInstallment *
    ((pending.newInstallmentsClaimed - pending.prevInstallmentsClaimed : Nat) : Int)
  paid : s.paidFrom id = start.paidFrom id + schedule.perInstallment * m.paid
  unmodified : s.Unmodified id

section Meter

variable {id : VaultId} {schedule : VestingSchedule} {start s t : State} {m : Meter}
variable {vault : Vault} {pending : VestingPendingClaim}

theorem Metered.of_none {drawn paid : Nat} (none : s.vesting.pendingClaim id 0 = none)
    (shares : ∀ vault ∈ s.vaults id, (vault.beneficiaries.map (·.bps)).sum ≤ 10000)
    (stored : s.vesting.schedule id 0 = some (schedule.claimedUpTo drawn))
    (paidEq : s.paidFrom id = start.paidFrom id + schedule.perInstallment * paid)
    (unmodified : s.Unmodified id) : Metered id schedule start s ⟨drawn, paid, .none⟩ where
  shares := shares
  stored := stored
  reserved := by
    rw [none]
    rfl
  amount pending member := by
    rw [none] at member
    cases member
  paid := paidEq
  unmodified := unmodified

theorem NewlyVesting.metered (fresh : NewlyVesting id vault schedule start) :
    Metered id schedule start start .empty := by
  refine .of_none fresh.settled ?_ ?_ (by simp) fresh.unmodified
  · intro v member
    rw [fresh.found] at member
    obtain rfl := Option.some.inj member
    exact fresh.shares
  · rw [fresh.stored, ← fresh.unclaimed]
    rfl

theorem Metered.pendingAmount (metered : Metered id schedule start s m) :
    s.pendingAmount id = schedule.perInstallment * m.pending := by
  unfold State.pendingAmount Meter.pending
  rw [metered.reserved]
  cases stored : s.vesting.pendingClaim id 0 with
  | none => simp
  | some pending => exact metered.amount pending stored

theorem Metered.paidOnce (metered : Metered id schedule start s m)
    (nonneg : 0 ≤ schedule.totalAmount) {now : Nat}
    (exactly : m.Exact (schedule.unlocked now)) : PaidOnce id schedule start s now := by
  intro _
  have floor : schedule.perInstallment = schedule.totalAmount / schedule.numInstallments :=
    Int.tdiv_eq_ediv_of_nonneg nonneg
  have perNonneg : 0 ≤ schedule.perInstallment := by
    rw [floor]
    exact Int.ediv_nonneg nonneg (Int.natCast_nonneg _)
  have within : (m.drawn : Int) ≤ schedule.unlocked now := by exact_mod_cast exactly.within
  have drawn : (m.paid : Int) + m.pending = m.drawn := by exact_mod_cast exactly.drawn
  calc s.paidFrom id - start.paidFrom id + s.pendingAmount id
      = schedule.perInstallment * m.drawn := by
        rw [metered.paid, metered.pendingAmount, ← drawn]
        ring
    _ ≤ schedule.perInstallment * schedule.unlocked now :=
        Int.mul_le_mul_of_nonneg_left within perNonneg
    _ = schedule.unlocked now * (schedule.totalAmount / schedule.numInstallments) := by
        rw [floor, Int.mul_comm]

/-! ### The steps -/

theorem claimAmount_claimedUpTo (vault : Vault) {drawn count : Nat}
    (more : count < schedule.numInstallments) :
    claimAmount vault (schedule.claimedUpTo drawn) count
      = schedule.perInstallment * ((count - drawn : Nat) : Int) :=
  if_neg (Nat.not_le.mpr more)

theorem perInstallment_mul_nonneg (nonneg : 0 ≤ schedule.totalAmount) (count : Nat) :
    0 ≤ schedule.perInstallment * (count : Int) :=
  Int.mul_nonneg (Int.tdiv_nonneg nonneg (Int.natCast_nonneg _)) (Int.natCast_nonneg _)

section

variable (metered : Metered id schedule start s m)
include metered

theorem Metered.draw {env : Env}
    (nonneg : 0 ≤ schedule.totalAmount)
    (locked : schedule.unlocked env.now < schedule.numInstallments)
    (settles : SettlesFirst env id s t) :
    ∃ n, m.Step (schedule.unlocked env.now) n ∧ Metered id schedule start t n := by
  obtain ⟨vault, current, amount, count, claimable, -, settled, advances⟩ := settles
  obtain ⟨more, within, amountEq⟩ := advances metered.unmodified
  cases metered.stored.symm.trans claimable.stored
  have within : count ≤ schedule.unlocked env.now := within
  rw [claimAmount_claimedUpTo vault (by omega)] at amountEq
  refine ⟨_, .draw more.le within, ?_, ?_, ?_, ?_, ?_, ?_⟩
  · intro v member
    rw [settled.vaults, update_self] at member
    obtain rfl := Option.some.inj member
    exact metered.shares vault claimable.found
  · rw [settled.schedule]
    exact withFirst_self _ _ _
  · rw [settled.pending]
    exact metered.reserved
  · rw [settled.pending]
    exact metered.amount
  · rw [settled.paid (amountEq ▸ perInstallment_mul_nonneg nonneg _)
      (metered.shares vault claimable.found), metered.paid, amountEq]
    push_cast
    ring
  · exact settled.unmodified metered.unmodified

theorem Metered.reserve {env : Env}
    (locked : schedule.unlocked env.now < schedule.numInstallments) {current : VestingSchedule}
    {window : Nat} (claimable : Claimable env id vault current s)
    (free : s.vesting.pendingClaim id 0 = none)
    (more : current.claimedInstallments < current.unlocked env.now) :
    ∃ n, m.Step (schedule.unlocked env.now) n ∧ Metered id schedule start { s with
      vesting.schedule :=
        s.vesting.withFirst id (some (current.claimedUpTo (current.unlocked env.now)))
      vesting.pendingClaim :=
        s.vesting.withPending id (some (pendingClaimOf env vault current window)) } n := by
  cases metered.stored.symm.trans claimable.stored
  have unreserved : m.reserved = none := by
    rw [metered.reserved, free]
    rfl
  refine ⟨_, .reserve unreserved more.le le_rfl,
    metered.shares, withFirst_self _ _ _, ?_, ?_, metered.paid, ?_⟩
  · show _ = (s.vesting.withPending id _ id 0).map _
    rw [withPending_self]
    rfl
  · intro pending member
    replace member : s.vesting.withPending id _ id 0 = some pending := member
    rw [withPending_self] at member
    obtain rfl := Option.some.inj member
    exact claimAmount_claimedUpTo vault locked
  · exact metered.unmodified.congr rfl rfl rfl

theorem Metered.reserved_of_some (stored : s.vesting.pendingClaim id 0 = some pending) :
    m.reserved = some (pending.prevInstallmentsClaimed, pending.newInstallmentsClaimed) := by
  rw [metered.reserved, stored]
  rfl

theorem Metered.giveBack {available : Nat}
    (stored : s.vesting.pendingClaim id 0 = some pending)
    (last : m.drawn = pending.newInstallmentsClaimed) :
    ∃ n, m.Step available n ∧ Metered id schedule start { s with
      vesting.schedule := s.vesting.withFirst id
        ((s.vesting.schedule id 0).map (·.claimedUpTo pending.prevInstallmentsClaimed))
      vesting.pendingClaim := s.vesting.withPending id none } n := by
  refine ⟨_, .giveBack (metered.reserved_of_some stored) last,
    .of_none (withPending_self _ _ _) metered.shares ?_ metered.paid
      (metered.unmodified.congr rfl rfl rfl)⟩
  show s.vesting.withFirst id _ id 0 = _
  rw [withFirst_self, metered.stored]
  rfl

theorem Metered.settle {available : Nat}
    (found : s.vaults id = some vault)
    (stored : s.vesting.pendingClaim id 0 = some pending)
    (vaults : t.vaults = update s.vaults id
      (some { vault with balance := vault.balance - pending.amount }))
    (vesting : t.vesting = { s.vesting with pendingClaim := s.vesting.withPending id none })
    (paid : t.paidFrom id = s.paidFrom id + pending.amount) :
    ∃ n, m.Step available n ∧ Metered id schedule start t n := by
  refine ⟨_, .settle (metered.reserved_of_some stored), .of_none ?_ ?_ ?_ ?_ ?_⟩
  · rw [vesting]
    exact withPending_self _ _ _
  · intro v member
    rw [vaults, update_self] at member
    obtain rfl := Option.some.inj member
    exact metered.shares vault found
  · rw [vesting]
    exact metered.stored
  · rw [paid, metered.paid, metered.amount pending stored]
    push_cast
    ring
  · exact metered.unmodified.congr (by rw [vesting]) (by rw [vesting]) (by rw [vesting])

theorem step_metered {host : Host} {input : Invocation}
    (nonneg : 0 ≤ schedule.totalAmount)
    (locked : schedule.unlocked input.env.now < schedule.numInstallments)
    (stepped : step host s input t) (call : InstallmentCall id input.call)
    (orderly : OrderlyReversal id s input.call) :
    ∃ n, m.Step (schedule.unlocked input.env.now) n ∧ Metered id schedule start t n := by
  obtain ⟨env, called⟩ := input
  obtain ⟨-, ran⟩ := stepped
  cases call with
  | claimVestedInstallment =>
    exact metered.draw nonneg locked (claimVestedInstallment_settled env id s _ _ ran)
  | claimCatchupVesting =>
    exact metered.draw nonneg locked (claimCatchupVesting_settled env id s _ _ ran)
  | initiateVestingClaim window =>
    obtain ⟨vault, current, claimable, free, more, rfl⟩ :=
      initiateVestingClaim_reserves env id s window _ _ ran
    exact metered.reserve locked claimable free more
  | reverseVestingClaim caller =>
    obtain ⟨pending, stored, rfl⟩ := reverseVestingClaim_restores env id s caller _ _ ran
    exact metered.giveBack stored (orderly pending stored _ metered.stored)
  | finalizeVestingClaim =>
    obtain ⟨vault, pending, found, stored, -, -, vaults, vesting, paid⟩ :=
      finalizeVestingClaim_pays env id s _ _ ran
    exact metered.settle found stored vaults vesting paid

end

/-! ### Runs -/

/-- The events of a run at times that do not decrease, none later than `now`. -/
def InOrderUntil (history : History) (now : Nat) : Prop :=
  history.Pairwise (fun earlier later => earlier.input.env.now ≤ later.input.env.now) ∧
    ∀ event ∈ history, event.input.env.now ≤ now

instance InOrderUntil.decidable (history : History) (now : Nat) :
    Decidable (InOrderUntil history now) :=
  inferInstanceAs (Decidable (_ ∧ _))

theorem run_metered {host : Host} {history : History}
    (fresh : NewlyVesting id vault schedule start) (run : ContractRun host start history s)
    (calls : ∀ event ∈ history, InstallmentCall id event.input.call)
    (orderly : ∀ event ∈ history, OrderlyReversal id event.before event.input.call) :
    ∀ now, InOrderUntil history now → schedule.unlocked now < schedule.numInstallments →
      ∃ m, Metered id schedule start s m ∧ m.Exact (schedule.unlocked now) := by
  induction run with
  | nil => exact fun _ _ _ => ⟨.empty, fresh.metered, Meter.exact_empty _⟩
  | @snoc front r u input run stepped ih =>
    rintro now ⟨times, past⟩ locked
    have last : (⟨r, input, u⟩ : VaultEvent) ∈ front ++ [⟨r, input, u⟩] :=
      mem_concat_self
    -- the meter was exact at the time of the last event, which is not later than now
    have opened := schedule.unlocked_mono (past _ last)
    obtain ⟨timesFront, -, before⟩ := pairwise_append.mp times
    obtain ⟨m, metered, exactly⟩ :=
      ih (forall_mem_concat.mp calls).1
        (forall_mem_concat.mp orderly).1 input.env.now
        ⟨timesFront, fun event member => before event member _ (mem_singleton.mpr rfl)⟩
        (lt_of_le_of_lt opened locked)
    obtain ⟨n, meterStep, meteredNow⟩ := step_metered metered fresh.nonneg
      (lt_of_le_of_lt opened locked) stepped (calls _ last) (orderly _ last)
    exact ⟨n, meteredNow, (exactly.step meterStep).mono opened⟩

/-- **Every installment is paid at most once**, in every run of the five calls at times that do not
decrease in which a claim is reversed only while the counter is where the claim left it. -/
theorem paidOnce_of_orderly {host : Host} {history : History} {vault : Vault} {now : Nat}
    (fresh : NewlyVesting id vault schedule start) (run : ContractRun host start history s)
    (calls : ∀ event ∈ history, InstallmentCall id event.input.call)
    (ordered : InOrderUntil history now)
    (orderly : ∀ event ∈ history, OrderlyReversal id event.before event.input.call) :
    PaidOnce id schedule start s now := by
  intro locked
  obtain ⟨m, metered, exactly⟩ := run_metered fresh run calls orderly now ordered locked
  exact metered.paidOnce fresh.nonneg exactly locked

end Meter

/-! ### A reversal behind another claim -/

def installmentVault : List Invocation :=
  plainInputs [(1000, ⟨3⟩, .createVault ⟨3⟩ ⟨4⟩ 600 none), (1001, ⟨3⟩, .deposit 1 ⟨3⟩ 100),
    (1002, ⟨3⟩, .record (.setVestingSchedule 1 ⟨3⟩ 2000 1000 10 100 0)),
    (2000, ⟨3⟩, .triggerRelease 1)]

def installmentStart : State := (replay fundedState installmentVault).2

def tenInstallments : VestingSchedule := ⟨2000, 1000, 10, 0, 100, 0⟩

theorem installmentStart_fresh : NewlyVesting 1
    { newVault ⟨3⟩ ⟨4⟩ ⟨1⟩ 600 1000 with balance := 100, status := .released } tenInstallments
    installmentStart where
  found := rfl
  released := rfl
  shares := by decide
  stored := rfl
  unclaimed := rfl
  nonneg := by decide
  settled := rfl
  unmodified := ⟨rfl, by decide +kernel, by decide +kernel⟩

theorem installmentCalls {inputs : List Invocation}
    (listed : ∀ input ∈ inputs, InstallmentCall 1 input.call) :
    ∀ event ∈ (replay installmentStart inputs).1, InstallmentCall 1 event.input.call :=
  fun event member => listed _ (replay_inputs installmentStart inputs event member)

def reversedInOrder : List Invocation :=
  plainInputs [(2001, ⟨4⟩, .record (.initiateVestingClaim 1 5000)),
    (2002, ⟨3⟩, .record (.reverseVestingClaim 1 ⟨3⟩)), (3001, ⟨4⟩, .claimVestedInstallment 1),
    (4001, ⟨4⟩, .record (.initiateVestingClaim 1 5000))]

theorem paidOnce_reversedInOrder :
    let run := replay installmentStart reversedInOrder
    run.1.length = 4 ∧ run.2.paidFrom 1 = 20 ∧ run.2.pendingAmount 1 = 10 ∧
      PaidOnce 1 tenInstallments installmentStart run.2 4001 := by
  refine ⟨by decide +kernel, by decide +kernel, by decide +kernel, ?_⟩
  refine paidOnce_of_orderly installmentStart_fresh (plainInputs_run_from installmentStart _)
    (installmentCalls ?_) (by decide +kernel) (by decide +kernel)
  simp only [plainInputs, map_cons, map_nil, forall_mem_cons]
  exact ⟨.initiateVestingClaim _, .reverseVestingClaim _, .claimVestedInstallment,
    .initiateVestingClaim _, by simp⟩

def reversedBehind : List Invocation :=
  plainInputs [(2001, ⟨4⟩, .record (.initiateVestingClaim 1 5000)),
    (3001, ⟨4⟩, .claimVestedInstallment 1), (3002, ⟨3⟩, .record (.reverseVestingClaim 1 ⟨3⟩)),
    (3003, ⟨4⟩, .claimVestedInstallment 1)]

/-- The second installment is paid twice: 30 leave the vault while 20 are unlocked. -/
theorem reversal_pays_twice :
    let run := replay installmentStart reversedBehind
    PlainRun (replay fundedState installmentVault).1 installmentStart ∧
      ContractRun plainHost installmentStart run.1 run.2 ∧
      (∀ event ∈ run.1, InstallmentCall 1 event.input.call) ∧ InOrderUntil run.1 3003 ∧
      tenInstallments.unlocked 3003 = 2 ∧ run.2.paidFrom 1 = 30 ∧
      ¬ PaidOnce 1 tenInstallments installmentStart run.2 3003 := by
  refine ⟨plainInputs_run _, plainInputs_run_from installmentStart _, installmentCalls ?_,
    by decide +kernel, by decide, by decide +kernel, by decide +kernel⟩
  simp only [reversedBehind, plainInputs, map_cons, map_nil, forall_mem_cons]
  exact ⟨.initiateVestingClaim _, .claimVestedInstallment, .reverseVestingClaim _,
    .claimVestedInstallment, by simp⟩

end EthosContracts.TtlVault
