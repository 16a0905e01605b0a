/-
**Released and cancelled are final, unless a second step comes late.**
-/

import EthosContracts.TtlVault.Transition

namespace EthosContracts.TtlVault

open Lib Function List

/-! ### The property and the condition -/

/-- A vault whose switch has fired or that was cancelled. -/
def Vault.Final (vault : Vault) : Prop := vault.status = .released ∨ vault.status = .cancelled

/-- What a final vault of `s` still is in the later state `t`. -/
def FinalBetween (s t : State) : Prop :=
  ∀ id v, s.vaults id = some v → v.Final →
    ∃ w, t.vaults id = some w ∧ w.status = v.status ∧ (w.status = .cancelled → w.balance = 0)

/-- **Released and cancelled are final** along a run: whatever state it passes through, and whatever
state it passes through later. -/
def StatusFinal (host : Host) (start : State) (history : History) : Prop :=
  ∀ earlier middle later s t, history = earlier ++ middle ++ later →
    ContractRun host start earlier s → ContractRun host s middle t → FinalBetween s t

/-- The condition: no cancellation of a released vault is executed, and nothing refills a cancelled
one. -/
def KeepsFinal (s : State) (call : Call) : Prop :=
  ∀ id v, s.vaults id = some v →
    (v.status = .released → executedOperation s id call ≠ some .cancelVault) ∧
    (v.status = .cancelled → ¬ Refills s id call)

/-! ### Steps that meet the condition -/

/-- A cancelled vault holds nothing. -/
def State.CancelledEmpty (s : State) : Prop :=
  ∀ id v, s.vaults id = some v → v.status = .cancelled → v.balance = 0

variable {s : State} {id vaultId id : VaultId} {call : Call} {config : VestingForfeitureConfig}
  {schedule : VestingSchedule} {v : Vault}

theorem FinalBetween.refl (empty : s.CancelledEmpty) : FinalBetween s s :=
  fun id v found _ => ⟨v, found, rfl, empty id v found⟩

theorem FinalBetween.trans {t u : State} (first : FinalBetween s t) (second : FinalBetween t u) :
    FinalBetween s u := by
  intro id v found final
  obtain ⟨w, foundW, status, -⟩ := first id v found final
  have stillFinal : w.Final := by
    unfold Vault.Final
    rw [status]
    exact final
  obtain ⟨x, foundX, later, empty⟩ := second id w foundW stillFinal
  exact ⟨x, foundX, later.trans status, empty⟩

section Effects

variable {env : Env} {call : Call} {s t : State}

theorem Effect.cancelledEmpty (effect : Effect env call s t) (keeps : KeepsFinal s call)
    (empty : s.CancelledEmpty) : t.CancelledEmpty := by
  intro id w present cancelled
  cases stored : s.vaults id with
  | none =>
    have locked := (effect.opened id w stored present).2
    cases locked.symm.trans cancelled
  | some v =>
    obtain ⟨w', present', change⟩ := effect.vaults id v stored
    cases present.symm.trans present'
    rcases change.empty cancelled with zero | ⟨before, refills⟩
    · exact zero
    · exact absurd (refills (empty id v stored before)) ((keeps id v stored).2 before)

theorem Effect.finalBetween (effect : Effect env call s t) (keeps : KeepsFinal s call)
    (empty : s.CancelledEmpty) : FinalBetween s t := by
  intro id v found final
  obtain ⟨w, present, change⟩ := effect.vaults id v found
  refine ⟨w, present, ?_, effect.cancelledEmpty keeps empty id w present⟩
  rcases change.status with same | locked | ⟨executed, cancelled⟩
  · exact same
  · rcases final with released | before
    · cases released.symm.trans locked
    · cases before.symm.trans locked
  · rcases final with released | before
    · exact absurd executed ((keeps id v found).1 released)
    · exact cancelled.trans before.symm

end Effects

/-! ### Steps that do not -/

theorem exec_cancels (env : Env) (executed : executedOperation s id call = some .cancelVault) :
    (exec env call).wp s fun _ t => ∃ w, t.vaults id = some w ∧ w.status = .cancelled := by
  cases call with
  | executeMultisig vaultId =>
    rw [executedOperation] at executed
    split_ifs at executed with same
    subst same
    simp only [exec.eq_def, executeMultisig, loadProposal, setProposal, closeProposal, wp_rules]
    intro _ v found _ proposal stored _ _
    have cancels : proposal.operation = .cancelVault := by
      rw [stored] at executed
      exact Option.some.inj executed
    unfold performOperation
    rw [cancels]
    simp only [removeOwnerVaultId, removeBeneficiaryVaultId, wp_rules]
    refine (refundOwner_disbursed env vaultId v _).mono ?_
    intro _ t _
    exact ⟨_, update_self .., rfl⟩
  | _ => cases executed

theorem saturateI128_ne_zero {value : Int} (nonzero : value ≠ 0) : saturateI128 value ≠ 0 := by
  unfold saturateI128 maxI128
  omega

theorem forfeitUnvested_takes (env : Env) (v : Vault)
    (stored : s.vesting.forfeiture id = some config) (kept : config.forfeited = false)
    (scheduled : s.vesting.schedule id 0 = some schedule) (unvested : 0 < schedule.unclaimed) :
    (forfeitUnvested env id v).wp s fun _ t =>
      t.vaults id = some { v with balance := v.balance - schedule.unclaimed } ∧
        t.vesting.schedule = s.vesting.schedule := by
  simp only [forfeitUnvested, wp_bind, wp_read, stored, scheduled]
  rw [if_neg (by rw [kept]; exact Bool.false_ne_true)]
  simp only [unvestedAmount, wp_rules]
  intro _ _ _
  exact ⟨fun _ _ _ _ _ => ⟨update_self .., trivial⟩, fun none => absurd unvested none⟩

theorem declineBeneficiaryRole_takes (env : Env) (caller : Address)
    (found : s.vaults id = some v) (stored : s.vesting.forfeiture id = some config)
    (kept : config.forfeited = false) (scheduled : s.vesting.schedule id 0 = some schedule)
    (unvested : 0 < schedule.unclaimed) :
    (declineBeneficiaryRole env id caller).wp s fun _ t =>
      t.vaults id = some { v with balance := v.balance - schedule.unclaimed } ∧
        t.vesting.schedule = s.vesting.schedule := by
  simp only [declineBeneficiaryRole, setBeneficiaryStatus, wp_rules]
  intro _ _ found' _
  cases found.symm.trans found'
  exact ⟨fun _ => forfeitUnvested_takes env v stored kept scheduled unvested,
    fun _ => forfeitUnvested_takes env v stored kept scheduled unvested⟩

theorem exec_refills (env : Env) (found : s.vaults id = some v) (zero : v.balance = 0)
    (refills : Refills s id call) :
    (exec env call).wp s fun _ t => ∃ w, t.vaults id = some w ∧ w.balance ≠ 0 := by
  cases call with
  | rollbackWithdrawal vaultId amount caller =>
    obtain rfl : vaultId = id := refills
    simp only [exec.eq_def, rollbackWithdrawal, wp_rules]
    intro pos _ v' found' _ _
    cases found.symm.trans found'
    refine ⟨_, update_self .., ?_⟩
    dsimp only
    omega
  | reverseWithdrawal vaultId caller withdrawalId =>
    obtain ⟨rfl, record, stored, nonzero⟩ := refills
    simp only [exec.eq_def, reverseWithdrawal, wp_rules]
    intro _ _ v' found' _ record' stored' _ _ _
    cases found.symm.trans found'
    cases stored.symm.trans stored'
    refine ⟨_, update_self .., ?_⟩
    dsimp only
    omega
  | verifyWithdrawalEscrow vaultId caller =>
    obtain ⟨rfl, escrow, stored, nonzero⟩ := refills
    simp only [exec.eq_def, verifyWithdrawalEscrow, wp_rules]
    intro _ v' found' escrow' stored' _ _ _ _ _ _
    cases found.symm.trans found'
    cases stored.symm.trans stored'
    refine ⟨_, update_self .., ?_⟩
    dsimp only
    omega
  | cancelVestingSchedule =>
    obtain ⟨rfl, schedule, stored, nonzero⟩ := refills
    simp only [exec.eq_def, cancelVestingSchedule, setSchedule, wp_rules]
    intro _ v' found' _ schedule' stored' _ _
    cases found.symm.trans found'
    cases stored.symm.trans stored'
    refine ⟨_, update_self .., ?_⟩
    show saturateI128 (v.balance + saturateI128 schedule.unclaimed) ≠ 0
    rw [zero, Int.zero_add]
    exact saturateI128_ne_zero (saturateI128_ne_zero nonzero)
  | declineBeneficiaryRole vaultId caller =>
    obtain ⟨rfl, config, schedule, stored, kept, scheduled, unvested⟩ := refills
    refine (declineBeneficiaryRole_takes env caller found stored kept scheduled unvested).mono ?_
    intro _ t taken
    refine ⟨_, taken.1, ?_⟩
    dsimp only
    omega
  | _ => exact refills.elim

section Runs

variable {host : Host} {start s : State} {history : History}

theorem run_finalBetween (run : ContractRun host start history s) (regular : start.Regular)
    (empty : start.CancelledEmpty)
    (keeps : ∀ event ∈ history, KeepsFinal event.before event.input.call) :
    s.CancelledEmpty ∧ FinalBetween start s := by
  refine regular_invariant run regular (fun t => t.CancelledEmpty ∧ FinalBetween start t)
    (fun t input => KeepsFinal t input.call) ⟨empty, .refl empty⟩ ?_ keeps
  rintro t input u regular ⟨emptyT, final⟩ allowed stepped
  have effect := step_effect regular stepped
  exact ⟨effect.cancelledEmpty allowed emptyT, final.trans (effect.finalBetween allowed emptyT)⟩

theorem keepsFinal_of_finalBetween {event : VaultEvent}
    (stepped : step host event.before event.input event.after)
    (empty : event.before.CancelledEmpty) (final : FinalBetween event.before event.after) :
    KeepsFinal event.before event.input.call := by
  intro id v found
  refine ⟨fun released executed => ?_, fun cancelled refills => ?_⟩
  · obtain ⟨w, present, same, -⟩ := final id v found (.inl released)
    obtain ⟨w', present', cancelled⟩ :=
      exec_cancels event.input.env executed () event.after stepped.2
    cases present.symm.trans present'
    cases (released.symm.trans same.symm).trans cancelled
  · obtain ⟨w, present, same, zero⟩ := final id v found (.inr cancelled)
    obtain ⟨w', present', nonzero⟩ :=
      exec_refills event.input.env found (empty id v found cancelled) refills () event.after stepped.2
    cases present.symm.trans present'
    exact nonzero (zero (same.trans cancelled))

end Runs

/-- **Released and cancelled are final along a run exactly if no step of it executes a cancellation
on a released vault or writes a balance to a cancelled one.** -/
theorem statusFinal_iff {host : Host} {xlmToken admin : Address} {ledger : Ledger Address Address}
    {history : History} {s : State}
    (run : ContractRun host (initialState xlmToken admin ledger) history s) :
    StatusFinal host (initialState xlmToken admin ledger) history ↔
      ∀ event ∈ history, KeepsFinal event.before event.input.call := by
  constructor
  · intro final event member
    obtain ⟨earlier, later, rfl, before, stepped, -⟩ := run.at_event member
    -- the state before the event, taken as the earlier and the later one, has no full cancelled vault
    have empty : event.before.CancelledEmpty := by
      intro id v found cancelled
      have here := final earlier [] (event :: later) event.before event.before
        (by rw [append_nil]) before .nil
      obtain ⟨w, present, same, zero⟩ := here id v found (.inr cancelled)
      cases found.symm.trans present
      exact zero cancelled
    refine keepsFinal_of_finalBetween stepped empty ?_
    exact final earlier [event] later event.before event.after
      (by rw [append_assoc, singleton_append]) before (.single stepped)
  · intro keeps earlier middle later t u whole first second
    have regular := initialState_regular xlmToken admin ledger
    have empty : (initialState xlmToken admin ledger).CancelledEmpty := fun _ _ found => nomatch found
    subst whole
    have early := run_finalBetween first regular empty fun event member =>
      keeps event (mem_append_left _ (mem_append_left _ member))
    have late := run_finalBetween second (run_regular first regular) early.1 fun event member =>
      keeps event (mem_append_left _ (mem_append_right _ member))
    exact late.2

def approvedCancellation : List Invocation :=
  [⟨plainEnv 1000 [⟨3⟩], .createVault ⟨3⟩ ⟨4⟩ 86400 none⟩,
   ⟨plainEnv 1001 [⟨3⟩], .deposit 1 ⟨3⟩ 100⟩,
   ⟨plainEnv 1002 [⟨3⟩], .record (.configureMultisig 1 ⟨3⟩ [⟨5⟩] 2)⟩,
   ⟨plainEnv 1003 [⟨3⟩], .record (.proposeMultisig 1 ⟨3⟩ .cancelVault [] none)⟩,
   ⟨plainEnv 1004 [⟨5⟩], .record (.approveMultisig 1 1 ⟨5⟩)⟩,
   ⟨plainEnv 100000 [], .triggerRelease 1⟩]

/-- As long as the cancellation is not executed, the release is final. -/
theorem statusFinal_approvedCancellation :
    (let record := replay fundedState approvedCancellation
     StatusFinal plainHost fundedState record.1 ∧
      (record.2.vaults 1).map Vault.status = some .released) := by
  have harmless : ∀ input ∈ approvedCancellation, ∀ s, KeepsFinal s input.call := by
    simp [approvedCancellation, KeepsFinal, executedOperation, Refills]
  refine ⟨(statusFinal_iff (replay_run fundedState approvedCancellation ?_)).mpr ?_, ?_⟩
  · simp [approvedCancellation, plainEnv]
  · intro event member
    exact harmless _ (replay_inputs fundedState approvedCancellation event member) _
  · decide +kernel

def lateCancellation : Invocation :=
  ⟨plainEnv 100001 [⟨3⟩], .executeMultisig 1 1 ⟨3⟩⟩

/-- It turns the released vault into a cancelled one. -/
theorem lateCancellation_not_final :
    (let record := replay fundedState approvedCancellation
     let after := replay fundedState (approvedCancellation ++ [lateCancellation])
     (record.2.vaults 1).map Vault.status = some .released ∧
      (after.2.vaults 1).map Vault.status = some .cancelled ∧
      PlainRun after.1 after.2 ∧
      ¬ StatusFinal plainHost fundedState after.1) := by
  refine ⟨rfl, rfl, replay_run fundedState _ ?_, fun final => ?_⟩
  · simp [approvedCancellation, lateCancellation, plainEnv]
  · have run : PlainRun (replay fundedState approvedCancellation).1
        (replay fundedState approvedCancellation).2 := by
      refine replay_run fundedState approvedCancellation ?_
      simp [approvedCancellation, plainEnv]
    have last := nextEvent_run fundedState approvedCancellation lateCancellation rfl
    obtain ⟨w, present, same, -⟩ :=
      final _ _ [] _ _ (append_nil _).symm run last 1 _ rfl (.inl rfl)
    cases present
    cases same

end EthosContracts.TtlVault
