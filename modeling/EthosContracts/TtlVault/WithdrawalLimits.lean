/-
**The limits of withdrawals.**

A vault may have a daily, a weekly and a monthly limit (`LimitPeriod`); a tracker counts what is
withdrawn in each period. The limits and the tracker are a quota that is renewed lazily.

`limits_hold` — in every run of withdrawals at times that never decrease, from a state where the
limits are set and nothing has been counted, the withdrawals of a tracker period stay within its
limit, and those of any window as long as a period within twice the limit.
-/

import EthosContracts.Lib.Quota
import EthosContracts.TtlVault.BatchRefinement

namespace EthosContracts.TtlVault

open Lib Function

inductive LimitPeriod
  | daily
  | weekly
  | monthly

def LimitPeriod.seconds : LimitPeriod → Nat
  | daily => 86400
  | weekly => 604800
  | monthly => 2592000

theorem LimitPeriod.seconds_pos (period : LimitPeriod) : 0 < period.seconds := by
  cases period <;> decide

def WithdrawalLimit.over (limits : WithdrawalLimit) : LimitPeriod → Int
  | .daily => limits.dailyLimit
  | .weekly => limits.weeklyLimit
  | .monthly => limits.monthlyLimit

def WithdrawalTracker.withdrawn (tracker : WithdrawalTracker) : LimitPeriod → Int
  | .daily => tracker.dailyWithdrawn
  | .weekly => tracker.weeklyWithdrawn
  | .monthly => tracker.monthlyWithdrawn

def WithdrawalTracker.resetAt (tracker : WithdrawalTracker) : LimitPeriod → Nat
  | .daily => tracker.dailyResetAt
  | .weekly => tracker.weeklyResetAt
  | .monthly => tracker.monthlyResetAt

def Call.withdrawal (other : VaultId) : Call → Option Int
  | .withdraw id _ amount => if id = other then some amount else none
  | _ => none

def withdrawalsFrom (id : VaultId) (history : History) : List (Nat × Int) :=
  history.filterMap fun event =>
    (event.input.call.withdrawal id).map fun amount => (event.input.env.now, amount)

/-- What is counted in a period, and when the period ends. -/
def State.counter (s : State) (id : VaultId) (period : LimitPeriod) : Option (Int × Nat) :=
  (s.withdrawals.tracker id).map fun tracker => (tracker.withdrawn period, tracker.resetAt period)

/-- The ends of the tracker periods that are seen in a run. -/
def resetsOf (id : VaultId) (period : LimitPeriod) (history : History) : List Nat :=
  history.filterMap fun event => (event.after.counter id period).map Prod.snd

section Step

variable {env : Env} {s : State} {id : VaultId} {amount : Int} {limits : WithdrawalLimit}

theorem charged_counter (period : LimitPeriod) :
    charged period.seconds env.now amount (s.counter id period) =
      (windowUsed env.now ((currentTracker env s id).withdrawn period)
          ((currentTracker env s id).resetAt period) + amount,
        windowEnd env.now period.seconds ((currentTracker env s id).resetAt period)) := by
  unfold State.counter currentTracker windowUsed windowEnd
  cases s.withdrawals.tracker id with
  | none => cases period <;> simp [charged, WithdrawalTracker.withdrawn, WithdrawalTracker.resetAt,
      LimitPeriod.seconds]
  | some tracker =>
    simp only [Option.map_some, Option.getD_some, charged]
    split <;> simp

theorem WithinLimits.charged_le (within : WithinLimits env s id amount limits)
    (period : LimitPeriod) :
    (charged period.seconds env.now amount (s.counter id period)).1 ≤ limits.over period := by
  rw [charged_counter]
  cases period with
  | daily => exact within.daily.allowed
  | weekly => exact within.weekly.allowed
  | monthly => exact within.monthly.allowed

theorem chargedTracker_counter (set : s.withdrawals.limit id = some limits) (period : LimitPeriod) :
    (chargedTracker env s id amount).map
        (fun tracker => (tracker.withdrawn period, tracker.resetAt period)) =
      some (charged period.seconds env.now amount (s.counter id period)) := by
  rw [charged_counter, chargedTracker, set]
  cases period <;> rfl

theorem withdraw_counts (env : Env) (id : VaultId) (caller : Address) (amount : Int)
    (s : State)
    (period : LimitPeriod) :
    (withdraw env id caller amount).wp s fun _ t =>
      0 < amount ∧ t.withdrawals.limit = s.withdrawals.limit ∧
      (∀ other ≠ id, t.counter other period = s.counter other period) ∧
      ∀ limits ∈ s.withdrawals.limit id,
        t.counter id period = some (charged period.seconds env.now amount (s.counter id period)) ∧
          (charged period.seconds env.now amount (s.counter id period)).1 ≤ limits.over period := by
  intro _ t ran
  rw [Tx.eq_ok_iff] at ran
  simp only [withdraw, recordWithdrawalForReversal, succeeds_rules,
    succeeds_checkWithdrawalLimits] at ran
  obtain ⟨-, pos, -, vault, -, -, -, -, -, -, -, -, within, -, -, -, ledger, -, -, -, -, -, -, -,
    rfl⟩ := ran
  refine ⟨pos, rfl, fun other ne => ?_, fun limits set => ⟨?_, ?_⟩⟩
  · show (update s.withdrawals.tracker id _ other).map _ = _
    rw [update_of_ne ne]
    rfl
  · show (update s.withdrawals.tracker id _ id).map _ = _
    rw [update_self]
    exact chargedTracker_counter set period
  · exact (within limits set).charged_le period

/-- The limits are set, and the tracker counts what was withdrawn. -/
structure LimitsTracked (id : VaultId) (limits : WithdrawalLimit) (period : LimitPeriod)
    (history : History) (s : State) : Prop where
  set : s.withdrawals.limit id = some limits
  metered : Lib.Metered period.seconds (limits.over period) (withdrawalsFrom id history)
    (resetsOf id period history) (s.counter id period)

theorem LimitsTracked.withdraw {history : History} {t : State} {id : VaultId}
    {caller : Address}
    {period : LimitPeriod} (tracked : LimitsTracked other limits period history s)
    (times : ∀ spending ∈ withdrawalsFrom other history, spending.1 ≤ env.now)
    (ran : withdraw env id caller amount s = .ok ((), t)) :
    LimitsTracked other limits period
      (history ++ [⟨s, ⟨env, .withdraw id caller amount⟩, t⟩]) t := by
  obtain ⟨pos, same, others, counts⟩ := withdraw_counts env id caller amount s period _ _ ran
  refine ⟨same ▸ tracked.set, ?_⟩
  have resets : resetsOf other period (history ++ [⟨s, ⟨env, .withdraw id caller amount⟩, t⟩]) =
      resetsOf other period history ++ ((t.counter other period).map Prod.snd).toList := by
    cases after : t.counter other period <;> simp [resetsOf, after]
  rw [resets]
  by_cases here : id = other
  · subst here
    obtain ⟨after, fits⟩ := counts limits tracked.set
    have charged := tracked.metered.charge period.seconds_pos pos.le times fits
    rw [← after] at charged
    simpa [withdrawalsFrom, Call.withdrawal] using charged.record
  · rw [others other (Ne.symm here)]
    simpa [withdrawalsFrom, Call.withdrawal, here] using tracked.metered.record

end Step

/-- **Withdrawal limits hold**, if they are set before the first withdrawal. A negative limit allows
nothing, and nothing is not below zero. -/
theorem limits_hold {host : Host} {start s : State} {history : History} {other : VaultId}
    {limits : WithdrawalLimit} (run : ContractRun host start history s)
    (withdraws : ∀ event ∈ history, ∃ id caller amount,
      event.input.call = .withdraw id caller amount)
    (ordered : history.Pairwise fun earlier later => earlier.input.env.now ≤ later.input.env.now)
    (set : start.withdrawals.limit other = some limits)
    (fresh : start.withdrawals.tracker other = none) (period : LimitPeriod) :
    (∀ event ∈ history, ∀ tracker ∈ event.after.withdrawals.tracker other,
      spent (withdrawalsFrom other history) (tracker.resetAt period - period.seconds)
        (tracker.resetAt period) ≤ limits.over period) ∧
    ∀ first, spent (withdrawalsFrom other history) first (first + period.seconds) ≤
      2 * max (limits.over period) 0 := by
  have tracked : LimitsTracked other limits period history s := by
    induction run with
    | nil =>
      refine ⟨set, ?_⟩
      rw [State.counter, fresh]
      exact .unused
    | @snoc history s t input run stepped ih =>
      obtain ⟨earlier, id, caller, amount, called⟩ := forall_mem_concat.mp withdraws
      obtain ⟨before, -, last⟩ := List.pairwise_append.mp ordered
      obtain ⟨env, call⟩ := input
      cases called
      refine (ih earlier before).withdraw (fun spending member => ?_) stepped.2
      obtain ⟨event, listed, is⟩ := List.mem_filterMap.mp member
      obtain ⟨_, -, rfl⟩ := Option.map_eq_some_iff.mp is
      exact last event listed _ (List.mem_singleton_self _)
  refine ⟨fun event member tracker stored => ?_, tracked.metered.window⟩
  refine tracked.metered.periods _ (List.mem_filterMap.mpr ⟨event, member, ?_⟩)
  rw [State.counter, stored]
  rfl

def limitedVault : State :=
  (played [(1000, ⟨3⟩, .createVault ⟨3⟩ ⟨4⟩ 1000000 none), (1001, ⟨3⟩, .deposit 1 ⟨3⟩ 100),
    (1002, ⟨3⟩, .record (.setWithdrawalLimits 1 ⟨3⟩ 40 70 90))]).2

def twoDays : Scenario :=
  [(2000, ⟨3⟩, .withdraw 1 ⟨3⟩ 10), (80000, ⟨3⟩, .withdraw 1 ⟨3⟩ 30), (90000, ⟨3⟩, .withdraw 1 ⟨3⟩ 20)]

theorem limits_hold_twoDays :
    let history := (replay limitedVault (plainInputs twoDays)).1
    spent (withdrawalsFrom 1 history) 70000 (70000 + 86400) = 50 ∧
      spent (withdrawalsFrom 1 history) 70000 (70000 + 86400) ≤ 2 * max 40 0 := by
  have set : limitedVault.withdrawals.limit 1 = some ⟨40, 70, 90⟩ := rfl
  refine ⟨rfl, (limits_hold (plainInputs_run_from limitedVault twoDays) ?_ ?_ set rfl .daily).2 70000⟩
  · intro event member
    rcases member with _ | ⟨_, _ | ⟨_, _ | ⟨_, none⟩⟩⟩
    · exact ⟨_, _, _, rfl⟩
    · exact ⟨_, _, _, rfl⟩
    · exact ⟨_, _, _, rfl⟩
    · cases none
  · decide +kernel

end EthosContracts.TtlVault
