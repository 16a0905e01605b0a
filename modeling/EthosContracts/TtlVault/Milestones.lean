/-
**Milestones**: when a report fulfils one, and what a claim pays for them.

The milestone of an index goes through the reports for it (`MilestoneEntry.reports`). Each milestone
has its share of the total, rounded down, and the last one what the others leave (`markedShares`). A
claim, however, gives the last one everything that has not been claimed before
(`MilestoneVestingSchedule.claimAmount`).
-/

import EthosContracts.TtlVault.Isolation

namespace EthosContracts.TtlVault

open Lib Function List

/-! ### Reports -/

def MilestoneEntry.reports (milestone : MilestoneEntry) (index : Nat) (entries : List (Nat × Int)) :
    MilestoneEntry :=
  entries.foldl (fun current entry => if entry.1 = index then current.reported entry.2 else current)
    milestone

section Reports

variable {index : Nat} {milestone : MilestoneEntry} {entries : List (Nat × Int)}

theorem updateMilestones_reports (s : State) : ∀ (milestones : List MilestoneEntry) (milestone),
    milestones[index]? = some milestone →
    (updateMilestones MilestoneEntry.reported entries milestones).wp s fun later _ =>
      later[index]? = some (milestone.reports index entries) := by
  induction entries with
  | nil =>
    intro milestones milestone stored
    exact (wp_pure s _ _).mpr stored
  | cons entry rest ih =>
    intro milestones milestone stored
    simp only [updateMilestones, wp_rules]
    intro current found _
    by_cases same : entry.1 = index
    · rw [same] at found ⊢
      cases stored.symm.trans found
      refine (ih _ (milestone.reported entry.2) ?_).mono fun _ _ reached => ?_
      · rw [List.getElem?_set_self (List.getElem?_eq_some_iff.mp stored).1]
      · rw [reached, MilestoneEntry.reports, MilestoneEntry.reports, foldl_cons, if_pos same]
    · refine (ih _ milestone ?_).mono fun _ _ reached => ?_
      · rw [List.getElem?_set_ne same, stored]
      · rw [reached, MilestoneEntry.reports, MilestoneEntry.reports, foldl_cons, if_neg same]

theorem reports_target : (milestone.reports index entries).targetValue = milestone.targetValue := by
  refine List.foldlRecOn entries _ (motive := fun current : MilestoneEntry =>
    current.targetValue = milestone.targetValue) rfl ?_
  intro current same entry _
  split
  · exact same
  · exact same

theorem reports_of_ne (others : ∀ entry ∈ entries, entry.1 ≠ index) :
    milestone.reports index entries = milestone := by
  refine List.foldlRecOn entries _ (motive := (· = milestone)) rfl ?_
  rintro _ rfl entry member
  exact if_neg (others entry member)

/-- **A report that reaches the target fulfils the milestone exactly if the value just before it was
below the target.** -/
theorem report_fulfils_iff {env : Env} {id : VaultId} {milestoneIndices : List Nat}
    {currentValues : List Int} {s t : State} {schedule : MilestoneVestingSchedule}
    {front back : List (Nat × Int)} {value : Int}
    (stored : s.vesting.milestones id = some schedule)
    (here : schedule.milestones[index]? = some milestone)
    (entries : milestoneIndices.zip currentValues = front ++ (index, value) :: back)
    (last : ∀ entry ∈ back, entry.1 ≠ index) (reached : milestone.targetValue ≤ max value 0)
    (reported : reportMilestoneProgress env id milestoneIndices currentValues s = .ok ((), t)) :
    (∃ later ∈ t.vesting.milestones id, ∃ now ∈ later.milestones[index]?, now.isFulfilled = true)
      ↔ (milestone.reports index front).currentValue < milestone.targetValue := by
  have nonempty : milestoneIndices.isEmpty = false := by
    cases milestoneIndices with
    | nil => exact absurd entries.symm (append_ne_nil_of_right_ne_nil _ (cons_ne_nil _ _))
    | cons => rfl
  have written : (reportMilestoneProgress env id milestoneIndices currentValues).wp s fun _ t =>
      ∃ later ∈ t.vesting.milestones id, later.milestones[index]? =
        some (milestone.reports index (front ++ (index, value) :: back)) := by
    simp only [reportMilestoneProgress, loadMilestones, setMilestones, wp_rules, nonempty]
    intro _ _ current found _ _
    cases stored.symm.trans found
    rw [entries]
    refine (updateMilestones_reports s _ milestone here).mono fun later _ at_index => ?_
    refine ⟨(absurd · Bool.false_ne_true), fun _ _ _ => ⟨_, update_self .., at_index⟩⟩
  obtain ⟨later, kept, at_index⟩ := written _ _ reported
  have final : milestone.reports index (front ++ (index, value) :: back) =
      (milestone.reports index front).reported value := by
    rw [MilestoneEntry.reports, foldl_append, foldl_cons, if_pos rfl]
    exact reports_of_ne last
  rw [final] at at_index
  have fulfilled : ((milestone.reports index front).reported value).isFulfilled = true ↔
      (milestone.reports index front).currentValue < milestone.targetValue := by
    simp only [MilestoneEntry.reported, reports_target, decide_eq_true_eq]
    exact and_iff_right reached
  constructor
  · rintro ⟨other, kept', now, at_index', is⟩
    cases kept.symm.trans kept'
    cases at_index.symm.trans at_index'
    exact fulfilled.mp is
  · intro below
    exact ⟨later, kept, _, at_index, fulfilled.mpr below⟩

end Reports

def milestoned (calls : Scenario) : State :=
  (played (hundredOpened ++ (1002, ⟨3⟩, .record (.setMilestoneVesting 1 ⟨3⟩
    [⟨"first", 10, 0, 5000, false, false⟩, ⟨"last", 10, 0, 5000, false, false⟩] ⟨9⟩)) :: calls)).2

theorem report_fulfils_first :
    ∃ later ∈ ((reportMilestoneProgress (plainEnv 1003 [⟨9⟩]) 1 [0] [12]).after
        (milestoned [])).vesting.milestones 1,
      ∃ now ∈ later.milestones[0]?, now.isFulfilled = true := by
  have stored : (milestoned []).vesting.milestones 1 = some ⟨100, [⟨"first", 10, 0, 5000, false, false⟩,
    ⟨"last", 10, 0, 5000, false, false⟩], 0, ⟨9⟩, false⟩ := rfl
  have ok : (reportMilestoneProgress (plainEnv 1003 [⟨9⟩]) 1 [0] [12] (milestoned [])).isOk = true := by
    decide +kernel
  have entries : [0].zip [(12 : Int)] = [] ++ (0, 12) :: [] := rfl
  exact (report_fulfils_iff stored rfl entries nofun (by decide) (Tx.eq_ok_after ok)).mpr (by decide)

/-- The owner lowers the target below the reported value, and a later report does not fulfil it. -/
theorem lowered_target_missed :
    ((milestoned [(1003, ⟨9⟩, .record (.reportMilestoneProgress 1 [0] [5])),
        (1004, ⟨3⟩, .record (.adjustMilestoneTargets 1 ⟨3⟩ [(0, 3)])),
        (1005, ⟨9⟩, .record (.reportMilestoneProgress 1 [0] [6]))]).vesting.milestones 1).map
      (fun schedule => schedule.milestones.map fun milestone =>
        (milestone.targetValue, milestone.currentValue, milestone.isFulfilled)) =
      some [(3, 6, false), (10, 0, false)] := by
  decide +kernel

/-! ### Shares -/

def milestoneShare (total : Int) (bps : Nat) : Int := (total * bps).tdiv 10000

def markedShares (total : Int) : List (Nat × Bool) → Int → Int
  | [], _ => 0
  | [(_, marked)], taken => if marked then total - taken else 0
  | (bps, marked) :: next :: rest, taken => (if marked then milestoneShare total bps else 0) +
      markedShares total (next :: rest) (taken + milestoneShare total bps)

/-- The points of milestones, with a mark on those that have a property. -/
def marks (p : MilestoneEntry → Bool) (milestones : List MilestoneEntry) : List (Nat × Bool) :=
  milestones.map fun milestone => (milestone.bps, p milestone)

section Shares

variable {total : Int} {p q : MilestoneEntry → Bool}

theorem marked_add {a b : Bool} (share : Int) (apart : a = true → b = false) :
    (if a then share else 0) + (if b then share else 0) = if a || b then share else 0 := by
  cases a <;> cases b <;> simp_all

theorem markedShares_add (apart : ∀ milestone, p milestone = true → q milestone = false) :
    ∀ milestones taken, markedShares total (marks p milestones) taken +
      markedShares total (marks q milestones) taken =
        markedShares total (marks (fun milestone => p milestone || q milestone) milestones) taken
  | [], _ => rfl
  | [milestone], taken => marked_add (total - taken) (apart milestone)
  | milestone :: next :: rest, taken => by
    have here := marked_add (milestoneShare total milestone.bps) (apart milestone)
    have later := markedShares_add apart (next :: rest) (taken + milestoneShare total milestone.bps)
    simp only [marks, map_cons, markedShares] at later ⊢
    rw [← later, ← here]
    omega

theorem markedShares_all : ∀ milestones taken, milestones ≠ [] →
    markedShares total (marks (fun _ => true) milestones) taken = total - taken
  | [], _, nonempty => absurd rfl nonempty
  | [_], _, _ => rfl
  | milestone :: next :: rest, taken, _ => by
    have later := markedShares_all (next :: rest) (taken + milestoneShare total milestone.bps)
      (cons_ne_nil _ _)
    simp only [marks, map_cons, markedShares, if_true] at later ⊢
    omega

theorem markedShares_nonneg (nonneg : 0 ≤ total) : ∀ (milestones : List MilestoneEntry)
    (taken : Int),
    10000 * taken + total * (milestones.map (·.bps)).sum ≤ 10000 * total →
    0 ≤ markedShares total (marks p milestones) taken
  | [], _, _ => le_refl 0
  | [milestone], taken, fits => by
    have points : 0 ≤ total * ([milestone].map (·.bps)).sum :=
      Int.mul_nonneg nonneg (Int.natCast_nonneg _)
    simp only [marks, map_cons, map_nil, markedShares]
    split <;> omega
  | milestone :: next :: rest, taken, fits => by
    have scaled : 0 ≤ total * (milestone.bps : Int) := Int.mul_nonneg nonneg (Int.natCast_nonneg _)
    have share : 0 ≤ milestoneShare total milestone.bps ∧
        10000 * milestoneShare total milestone.bps ≤ total * milestone.bps := by
      unfold milestoneShare
      rw [Int.tdiv_eq_ediv_of_nonneg scaled]
      omega
    rw [map_cons, sum_cons, Nat.cast_add, Int.mul_add] at fits
    have later := markedShares_nonneg nonneg (next :: rest) (taken + milestoneShare total milestone.bps)
      (by omega)
    simp only [marks, map_cons, markedShares] at later ⊢
    split <;> omega

end Shares

variable (schedule : MilestoneVestingSchedule)

namespace MilestoneVestingSchedule

/-- **The shares of the milestones with a property.** -/
def due (p : MilestoneEntry → Bool) : Int :=
  markedShares schedule.totalAmount (marks p schedule.milestones) 0

/-- What a claim computes: with the last milestone, all that is left. -/
def claimAmount : Int :=
  if schedule.milestones.getLast?.any (·.claimable) then
    schedule.totalAmount - schedule.claimedAmount
  else schedule.due (·.claimable)

def afterClaim : MilestoneVestingSchedule :=
  { schedule with
    milestones := schedule.milestones.map fun milestone =>
      if milestone.claimable then { milestone with claimed := true } else milestone
    claimedAmount := schedule.claimedAmount + schedule.claimAmount }

/-- A schedule that `set_milestone_vesting` accepts, at any later time. -/
structure Accepted (schedule : MilestoneVestingSchedule) : Prop where
  nonneg : 0 ≤ schedule.totalAmount
  nonempty : schedule.milestones ≠ []
  points : (schedule.milestones.map (·.bps)).sum = 10000

variable {schedule : MilestoneVestingSchedule} {p q : MilestoneEntry → Bool}

theorem due_or (apart : ∀ milestone, p milestone = true → q milestone = false) :
    schedule.due p + schedule.due q = schedule.due fun milestone => p milestone || q milestone :=
  markedShares_add apart _ _

theorem due_afterClaim : schedule.afterClaim.due (·.claimed) =
    schedule.due (·.claimed) + schedule.due (·.claimable) := by
  rw [due_or fun milestone here => by simp [MilestoneEntry.claimable, here], due, due, afterClaim,
    marks, map_map]
  congr 1
  refine map_congr_left fun milestone _ => ?_
  simp only [Function.comp_apply]
  split
  · rename_i claimable
    rw [claimable, Bool.or_true]
  · rename_i not
    rw [Bool.eq_false_of_not_eq_true not, Bool.or_false]

theorem afterClaim_points :
    schedule.afterClaim.milestones.map (·.bps) = schedule.milestones.map (·.bps) := by
  rw [afterClaim, map_map]
  refine map_congr_left fun milestone _ => ?_
  simp only [Function.comp_apply]
  split <;> rfl

namespace Accepted

variable (accepted : schedule.Accepted)
include accepted

theorem due_nonneg : 0 ≤ schedule.due p := by
  refine markedShares_nonneg accepted.nonneg _ _ ?_
  rw [accepted.points]
  omega

theorem due_all : (schedule.due fun _ => true) = schedule.totalAmount := by
  rw [due, markedShares_all _ _ accepted.nonempty, Int.sub_zero]

theorem due_not :
    schedule.due p + schedule.due (fun milestone => !p milestone) = schedule.totalAmount := by
  rw [due_or (by simp), ← accepted.due_all]
  simp only [Bool.or_not_self]

theorem claimAmount_eq_due_iff : schedule.claimAmount = schedule.due (·.claimable) ↔
    (schedule.milestones.getLast?.any (·.claimable) = true →
      schedule.claimedAmount = schedule.due (!·.claimable)) := by
  have whole := accepted.due_not (p := (·.claimable))
  unfold claimAmount
  split
  · rename_i last
    rw [forall_prop_of_true last]
    omega
  · rename_i notLast
    exact iff_of_true rfl fun last => absurd last notLast

theorem claimAmount_nonneg (within : schedule.claimedAmount ≤ schedule.totalAmount) :
    0 ≤ schedule.claimAmount := by
  unfold claimAmount
  split
  · omega
  · exact accepted.due_nonneg

theorem of_points {later : MilestoneVestingSchedule}
    (total : later.totalAmount = schedule.totalAmount)
    (points : later.milestones.map (·.bps) = schedule.milestones.map (·.bps)) : later.Accepted := by
  refine ⟨total ▸ accepted.nonneg, fun none => accepted.nonempty ?_, points ▸ accepted.points⟩
  rw [none, map_nil] at points
  exact map_eq_nil_iff.mp points.symm

end Accepted

end MilestoneVestingSchedule

/-! ### The calls -/

/-- The calls about the milestones of a vault. -/
inductive MilestoneCall (id : VaultId) : Call → Prop
  | claim : MilestoneCall id (.claimMilestoneInstallments id)
  | pause (caller) : MilestoneCall id (.record (.pauseMilestoneVesting id caller))
  | resume (caller) : MilestoneCall id (.record (.resumeMilestoneVesting id caller))
  | adjust (caller adjustments) :
      MilestoneCall id (.record (.adjustMilestoneTargets id caller adjustments))
  | fulfil (caller milestoneIndices) :
      MilestoneCall id (.record (.emergencyFulfillMilestones id caller milestoneIndices))
  | report (milestoneIndices currentValues) :
      MilestoneCall id (.record (.reportMilestoneProgress id milestoneIndices currentValues))

section Calls

variable {env : Env} {id : VaultId} {start s t : State} {vault : Vault} {call : Call}
  {schedule : MilestoneVestingSchedule}

theorem sumMilestones_eq (total claimed : Int) : ∀ (milestones : List MilestoneEntry)
    (taken sum : Int),
    (sumMilestones total claimed milestones sum).wp s fun amount t => t = s ∧ amount =
      if milestones.getLast?.any (·.claimable) then total - claimed
      else sum + markedShares total (marks (·.claimable) milestones) taken
  | [], taken, sum => by simp [sumMilestones, markedShares, marks]
  | [milestone], taken, sum => by
    simp only [sumMilestones, wp_rules, List.getLast?_singleton, Option.any_some, isEmpty_nil, marks,
      map_cons, map_nil, markedShares]
    refine ⟨fun here => ⟨fun _ _ _ _ => ⟨trivial, ?_⟩, (absurd trivial ·)⟩, fun none => ⟨trivial, ?_⟩⟩
    · rw [if_pos here]
      omega
    · rw [if_neg none, if_neg none, Int.add_zero]
  | milestone :: next :: rest, taken, sum => by
    have later := sumMilestones_eq total claimed (next :: rest)
      (taken + milestoneShare total milestone.bps)
    rw [sumMilestones]
    simp only [wp_rules, List.getLast?_cons_cons, isEmpty_cons, marks, map_cons,
      markedShares] at later ⊢
    refine ⟨fun here => ⟨(absurd · Bool.false_ne_true), fun _ _ _ => (later _).mono ?_⟩,
      fun none => (later sum).mono ?_⟩
    · rintro _ _ ⟨same, rfl⟩
      rw [if_pos here, ← Int.add_assoc]
      exact ⟨same, rfl⟩
    · rintro _ _ ⟨same, rfl⟩
      rw [if_neg none, Int.zero_add]
      exact ⟨same, rfl⟩

theorem sumMilestones_claimAmount :
    (sumMilestones schedule.totalAmount schedule.claimedAmount schedule.milestones 0).wp s
      fun amount t => t = s ∧ amount = schedule.claimAmount := by
  refine (sumMilestones_eq _ _ schedule.milestones 0 0).mono ?_
  rintro _ _ ⟨same, rfl⟩
  rw [Int.zero_add]
  exact ⟨same, rfl⟩

theorem updateMilestones_marks {α : Type} {change : MilestoneEntry → α → MilestoneEntry}
    (kept : ∀ milestone value, (change milestone value).bps = milestone.bps ∧
      (change milestone value).claimed = milestone.claimed) (changes : List (Nat × α)) (s : State) :
    ∀ milestones, (updateMilestones change changes milestones).wp s fun later t =>
      t = s ∧ marks (·.claimed) later = marks (·.claimed) milestones := by
  induction changes with
  | nil => exact fun milestones => (wp_pure s _ _).mpr ⟨rfl, rfl⟩
  | cons head rest ih =>
    intro milestones
    simp only [updateMilestones, wp_rules]
    intro milestone found _
    obtain ⟨bound, rfl⟩ := List.getElem?_eq_some_iff.mp found
    refine (ih _).mono fun later t result => ⟨result.1, result.2.trans ?_⟩
    have within : head.1 < (marks (·.claimed) milestones).length := by simpa [marks] using bound
    have same : (milestones[head.1].bps, milestones[head.1].claimed) =
        (marks (·.claimed) milestones)[head.1] := by simp [marks]
    rw [marks, map_set, (kept ..).1, (kept ..).2, same]
    exact set_getElem_self _

theorem MilestoneCall.keeps (about : MilestoneCall id call)
    (other : call ≠ .claimMilestoneInstallments id)
    (stored : s.vesting.milestones id = some schedule) : (exec env call).wp s fun _ t =>
      t.vaults = s.vaults ∧ t.payouts = s.payouts ∧ ∃ paused milestones,
        t.vesting.milestones id = some { schedule with paused := paused, milestones := milestones } ∧
          marks (·.claimed) milestones = marks (·.claimed) schedule.milestones := by
  cases about with
  | claim => exact absurd rfl other
  | pause caller | resume caller =>
    simp only [exec.eq_def, execRecord.eq_def, pauseMilestoneVesting, resumeMilestoneVesting,
      setMilestonesPaused, loadMilestones, setMilestones, wp_rules]
    intro _ _ _ _ _ _ stored' _
    cases stored.symm.trans stored'
    exact ⟨trivial, trivial, _, _, update_self .., rfl⟩
  | adjust =>
    simp only [exec.eq_def, execRecord.eq_def, adjustMilestoneTargets, loadMilestones,
      setMilestones, wp_rules]
    intro _ _ _ _ _ _ stored'
    cases stored.symm.trans stored'
    refine Tx.wp.mono (updateMilestones_marks (by simp) _ s _) ?_
    rintro later _ ⟨rfl, same⟩
    exact ⟨rfl, rfl, _, later, update_self .., same⟩
  | fulfil =>
    simp only [exec.eq_def, execRecord.eq_def, emergencyFulfillMilestones, loadMilestones,
      setMilestones, wp_rules]
    intro _ _ _ _ _ _ stored'
    cases stored.symm.trans stored'
    refine Tx.wp.mono (updateMilestones_marks (by simp) _ s _) ?_
    rintro later _ ⟨rfl, same⟩ _
    exact ⟨rfl, rfl, _, later, update_self .., same⟩
  | report =>
    simp only [exec.eq_def, execRecord.eq_def, reportMilestoneProgress, loadMilestones,
      setMilestones, wp_rules]
    intro _ _ _ stored' _ _
    cases stored.symm.trans stored'
    refine Tx.wp.mono (updateMilestones_marks (by simp [MilestoneEntry.reported]) _ s _) ?_
    rintro later _ ⟨rfl, same⟩
    exact ⟨fun _ => ⟨rfl, rfl, _, _, stored, rfl⟩,
      fun _ _ _ => ⟨rfl, rfl, _, later, update_self .., same⟩⟩

/-- **The books of a milestone schedule**: its claimed amount is what has been paid since the start,
and the balance is the rest. -/
structure Tracked (id : VaultId) (start s : State) (vault : Vault)
    (schedule : MilestoneVestingSchedule) : Prop where
  found : s.vaults id = some vault
  shares : (vault.beneficiaries.map (·.bps)).sum ≤ 10000
  stored : s.vesting.milestones id = some schedule
  accepted : schedule.Accepted
  claimed : schedule.claimedAmount = s.paidFrom id - start.paidFrom id
  balance : vault.balance = schedule.totalAmount - schedule.claimedAmount
  covered : 0 ≤ vault.balance

variable (tracked : Tracked id start s vault schedule)
include tracked

theorem Tracked.claim :
    (claimMilestoneInstallments env id).wp s fun _ t =>
      t.paidFrom id - s.paidFrom id = schedule.claimAmount ∧
        Tracked id start t { vault with balance := vault.balance - schedule.claimAmount }
          schedule.afterClaim := by
  obtain ⟨found, shares, stored, accepted, claimed, balance, covered⟩ := tracked
  have nonneg := accepted.claimAmount_nonneg (by omega)
  simp only [claimMilestoneInstallments, loadMilestones, setMilestones, wp_rules]
  intro _ _ found' _ _ stored' _
  cases found.symm.trans found'
  cases stored.symm.trans stored'
  refine sumMilestones_claimAmount.mono ?_
  rintro _ _ ⟨rfl, rfl⟩ _ enough
  refine ((payBeneficiaries_paid env id vault _ nonneg shares _).and
    (payBeneficiaries_disbursed env id vault _ _)).mono ?_
  rintro _ t ⟨⟨_, paid, _⟩, disbursed⟩ _ _
  have since : schedule.claimedAmount + schedule.claimAmount =
      t.paidFrom id - start.paidFrom id := by omega
  rw [disbursed.frame] at paid since ⊢
  refine ⟨Int.sub_eq_iff_eq_add'.mpr paid, update_self .., shares, update_self ..,
    accepted.of_points rfl MilestoneVestingSchedule.afterClaim_points, since, ?_, ?_⟩
  · show vault.balance - _ = schedule.totalAmount - (schedule.claimedAmount + _)
    omega
  · show 0 ≤ vault.balance - _
    omega

theorem Tracked.keep {milestones : List MilestoneEntry} (paused : Bool)
    (vaults : t.vaults = s.vaults) (payouts : t.payouts = s.payouts)
    (stored : t.vesting.milestones id =
      some { schedule with paused := paused, milestones := milestones })
    (same : marks (·.claimed) milestones = marks (·.claimed) schedule.milestones) :
    Tracked id start t vault { schedule with paused := paused, milestones := milestones } := by
  have points := congrArg (List.map Prod.fst) same
  simp only [marks, map_map] at points
  refine ⟨vaults ▸ tracked.found, tracked.shares, stored, tracked.accepted.of_points rfl points, ?_,
    tracked.balance, tracked.covered⟩
  rw [State.paidFrom, payouts]
  exact tracked.claimed

end Calls

/-! ### Orders -/

/-- A claim pays the shares of the milestones that it claims. -/
def Exact (id : VaultId) (event : VaultEvent) : Prop :=
  event.input.call = .claimMilestoneInstallments id →
    ∀ schedule ∈ event.before.vesting.milestones id,
      event.after.paidFrom id - event.before.paidFrom id = schedule.due (·.claimable)

/-- The last milestone is claimed after the others or with them. -/
def InTurn (id : VaultId) (event : VaultEvent) : Prop :=
  event.input.call = .claimMilestoneInstallments id →
    ∀ schedule ∈ event.before.vesting.milestones id,
      schedule.milestones.getLast?.any (·.claimable) = true →
        schedule.claimedAmount = schedule.due (!·.claimable)

/-- **Payouts that do not depend on the order**: each claim has paid its shares, the next one is
covered by the balance, and all of them together pay the total. -/
structure OrderFree (id : VaultId) (begun : MilestoneVestingSchedule) (start : State)
    (history : History) (s : State) : Prop where
  exact : ∀ event ∈ history, Exact id event
  covered : ∀ vault ∈ s.vaults id, ∀ schedule ∈ s.vesting.milestones id,
    (sumMilestones schedule.totalAmount schedule.claimedAmount schedule.milestones 0).wp s
      fun amount _ => amount ≤ vault.balance
  total : (∀ schedule ∈ s.vesting.milestones id, ∀ milestone ∈ schedule.milestones,
    milestone.claimed = true) → s.paidFrom id - start.paidFrom id = begun.totalAmount

section Orders

variable {host : Host} {id : VaultId} {start s t : State} {history : History} {vault : Vault}
  {begun schedule : MilestoneVestingSchedule} {input : Invocation}

theorem Tracked.affords (tracked : Tracked id start s vault schedule)
    (paid : schedule.claimedAmount ≤ schedule.due (·.claimed)) :
    schedule.claimAmount ≤ vault.balance := by
  have accepted := tracked.accepted
  have balance := tracked.balance
  unfold MilestoneVestingSchedule.claimAmount
  split
  · omega
  · have apart := schedule.due_or (p := (·.claimed)) (q := (·.claimable))
      fun milestone here => by simp [MilestoneEntry.claimable, here]
    have whole := accepted.due_not (p := fun milestone => milestone.claimed || milestone.claimable)
    have rest := accepted.due_nonneg (p := fun milestone => !(milestone.claimed || milestone.claimable))
    omega

theorem Tracked.step (tracked : Tracked id start s vault schedule)
    (stepped : step host s input t)
    (about : MilestoneCall id input.call) : ∃ vault' schedule', Tracked id start t vault' schedule' ∧
      schedule'.totalAmount = schedule.totalAmount ∧
      (Exact id ⟨s, input, t⟩ ↔ InTurn id ⟨s, input, t⟩) ∧
      (Exact id ⟨s, input, t⟩ → schedule'.claimedAmount - schedule'.due (·.claimed) =
        schedule.claimedAmount - schedule.due (·.claimed)) := by
  obtain ⟨-, ran⟩ := stepped
  by_cases claim : input.call = .claimMilestoneInstallments id
  · rw [claim] at ran
    obtain ⟨paid, later⟩ := tracked.claim _ _ ran
    have exact_iff : Exact id ⟨s, input, t⟩ ↔
        schedule.claimAmount = schedule.due (·.claimable) := by
      simp only [Exact, claim, tracked.stored, Option.mem_some_iff, forall_eq', forall_const, paid]
    refine ⟨_, _, later, rfl, ?_, fun exact => ?_⟩
    · rw [exact_iff, tracked.accepted.claimAmount_eq_due_iff]
      simp only [InTurn, claim, tracked.stored, Option.mem_some_iff, forall_eq', forall_const]
    · have same := exact_iff.mp exact
      rw [MilestoneVestingSchedule.due_afterClaim]
      show schedule.claimedAmount + schedule.claimAmount - _ = _
      omega
  · obtain ⟨vaults, payouts, paused, milestones, stored, same⟩ :=
      about.keeps claim tracked.stored _ _ ran
    refine ⟨vault, _, tracked.keep paused vaults payouts stored same, rfl, ?_, fun _ => ?_⟩
    · exact iff_of_true (fun called => absurd called claim) (fun called => absurd called claim)
    · rw [MilestoneVestingSchedule.due, same, MilestoneVestingSchedule.due]

theorem tracked_run (begunTracked : Tracked id start start vault begun)
    (run : ContractRun host start history s)
    (calls : ∀ event ∈ history, MilestoneCall id event.input.call) :
    ∃ vault' schedule', Tracked id start s vault' schedule' ∧
      schedule'.totalAmount = begun.totalAmount ∧
      (∀ event ∈ history, Exact id event ↔ InTurn id event) ∧
      ((∀ event ∈ history, Exact id event) →
        schedule'.claimedAmount - schedule'.due (·.claimed) = - begun.due (·.claimed)) := by
  induction run with
  | nil =>
    have none := begunTracked.claimed
    refine ⟨vault, begun, begunTracked, rfl, forall_mem_nil _, fun _ => ?_⟩
    omega
  | snoc run stepped ih =>
    rw [forall_mem_append, forall_mem_singleton] at calls
    obtain ⟨_, _, tracked, total, turns, marked⟩ := ih calls.1
    obtain ⟨vault', schedule', later, same, turn, marks⟩ := tracked.step stepped calls.2
    refine ⟨vault', schedule', later, same.trans total, ?_, ?_⟩
    · rw [forall_mem_append, forall_mem_singleton]
      exact ⟨turns, turn⟩
    · rw [forall_mem_append, forall_mem_singleton]
      exact fun exact => (marks exact.2).trans (marked exact.1)

/-- **The payouts do not depend on the order exactly if** each claim of the last milestone finds the
milestones that it does not claim paid, and no share was marked as claimed from the beginning. -/
theorem orderFree_iff (begunTracked : Tracked id start start vault begun)
    (run : ContractRun host start history s)
    (calls : ∀ event ∈ history, MilestoneCall id event.input.call) :
    OrderFree id begun start history s ↔ (∀ event ∈ history, InTurn id event) ∧
      ((∀ schedule ∈ s.vesting.milestones id, ∀ milestone ∈ schedule.milestones,
        milestone.claimed = true) → begun.due (·.claimed) = 0) := by
  obtain ⟨vault', schedule, tracked, total, turns, marked⟩ := tracked_run begunTracked run calls
  have unpaid := begunTracked.accepted.due_nonneg (p := (·.claimed))
  have since := tracked.claimed
  have complete : (∀ later ∈ s.vesting.milestones id, ∀ milestone ∈ later.milestones,
      milestone.claimed = true) → schedule.due (·.claimed) = begun.totalAmount := by
    intro all
    rw [← total, ← tracked.accepted.due_all, MilestoneVestingSchedule.due, marks,
      map_congr_left fun milestone member => by rw [all schedule tracked.stored milestone member]]
    rfl
  constructor
  · intro free
    refine ⟨fun event member => (turns event member).mp (free.exact event member), fun all => ?_⟩
    have paid := marked free.exact
    have whole := complete all
    have sum := free.total all
    omega
  · intro ⟨inTurn, fresh⟩
    have exact : ∀ event ∈ history, Exact id event :=
      fun event member => (turns event member).mpr (inTurn event member)
    have paid := marked exact
    refine ⟨exact, ?_, fun all => ?_⟩
    · intro current found later stored
      cases tracked.found.symm.trans found
      cases tracked.stored.symm.trans stored
      refine sumMilestones_claimAmount.mono ?_
      rintro _ _ ⟨-, rfl⟩
      exact tracked.affords (by omega)
    · have whole := complete all
      have none := fresh all
      omega

/-- Both milestones are claimed together. -/
theorem orderFree_together :
    let start := milestoned [(2000, ⟨3⟩, .triggerRelease 1)]
    let later := replay start (plainInputs [
      (2001, ⟨9⟩, .record (.reportMilestoneProgress 1 [1, 0] [10, 10])),
      (2002, ⟨4⟩, .claimMilestoneInstallments 1)])
    OrderFree 1 ⟨100, [⟨"first", 10, 0, 5000, false, false⟩, ⟨"last", 10, 0, 5000, false, false⟩], 0, ⟨9⟩,
      false⟩ start later.1 later.2 := by
  intro start later
  have begun : Tracked 1 start start { hundred with status := .released } ⟨100,
      [⟨"first", 10, 0, 5000, false, false⟩, ⟨"last", 10, 0, 5000, false, false⟩], 0, ⟨9⟩, false⟩ :=
    ⟨rfl, by decide, rfl, ⟨by decide, by decide, by decide⟩, by decide +kernel, rfl, by decide⟩
  have calls : ∀ call ∈ later.1.map (·.input.call), MilestoneCall 1 call := by
    rw [show later.1.map (·.input.call) = [.record (.reportMilestoneProgress 1 [1, 0] [10, 10]),
      .claimMilestoneInstallments 1] from rfl]
    simp only [forall_mem_cons]
    exact ⟨.report _ _, .claim, forall_mem_nil _⟩
  have turns : ∀ event ∈ later.1, ∀ schedule ∈ event.before.vesting.milestones 1,
      schedule.milestones.getLast?.any (·.claimable) = true →
        schedule.claimedAmount = schedule.due (!·.claimable) := by decide +kernel
  refine (orderFree_iff begun (plainInputs_run_from _ _) (forall_mem_map.mp calls)).mpr ⟨?_, ?_⟩
  · exact fun event member _ => turns event member
  · exact fun _ => by decide

/-- The last milestone is fulfilled and claimed first, which takes everything; when the first one is
fulfilled, its claim fails. -/
theorem claimed_last_first :
    let s := milestoned [(1003, ⟨9⟩, .record (.reportMilestoneProgress 1 [1] [10])),
      (2000, ⟨3⟩, .triggerRelease 1), (2001, ⟨4⟩, .claimMilestoneInstallments 1),
      (2002, ⟨9⟩, .record (.reportMilestoneProgress 1 [0] [10]))]
    s.paidFrom 1 = 100 ∧ claimMilestoneInstallments (plainEnv 2003 [⟨4⟩]) 1 s =
      .error (.error .insufficientBalance) :=
  ⟨by decide +kernel, rfl⟩

end Orders

end EthosContracts.TtlVault
