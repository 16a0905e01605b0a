/-
**After the switch has fired the owner is not paid, as long as no call forgets to look.**
-/

import EthosContracts.TtlVault.Transition

namespace EthosContracts.TtlVault

open Lib List

/-! ### Payees named by the owner -/

/-- The addresses, if a call is about the vault `id`. -/
def named (id vaultId : VaultId) (addresses : List Address) : List Address :=
  if vaultId = id then addresses else []

/-- The addresses that a call of the owner names as payees of a vault, or as its next owner. -/
def Call.payees (id : VaultId) : Call → List Address
  | .record (.createWithdrawalEscrow vaultId _ beneficiary _) => named id vaultId [beneficiary]
  | .record (.updateBeneficiary vaultId _ newBeneficiary) => named id vaultId [newBeneficiary]
  | .record (.initiateOwnershipTransfer vaultId _ newOwner) => named id vaultId [newOwner]
  | .record (.proposeMultisig vaultId _ _ _ addressPayload) => named id vaultId addressPayload.toList
  | .record (.setVestingStagger vaultId _ entries) => named id vaultId (entries.map (·.beneficiary))
  | .record (.setBeneficiaryVesting vaultId _ beneficiary _ _ _ _) => named id vaultId [beneficiary]
  | .setBeneficiaries vaultId _ entries => named id vaultId (entries.map (·.address))
  | .scheduleBeneficiaryRotation vaultId _ _ entries => named id vaultId (entries.map (·.address))
  | .addBeneficiary vaultId _ address _ => named id vaultId [address]
  | .transferOwnership vaultId _ newOwner => named id vaultId [newOwner]
  | .setVestingForfeiture vaultId _ recipient => named id vaultId [recipient]
  | _ => []

/-- The calls that register a payee whatever the vault's status. -/
def Call.registersPayee (id : VaultId) : Call → Prop
  | .record (.createWithdrawalEscrow vaultId _ _ _) => vaultId = id
  | .record (.setBeneficiaryVesting vaultId _ _ _ _ _ _) => vaultId = id
  | .setVestingForfeiture vaultId _ _ => vaultId = id
  | _ => False

variable {id vaultId : VaultId} {addresses : List Address} {s : State} {registers : Prop}

theorem mem_named {address : Address} :
    address ∈ named id vaultId addresses ↔ vaultId = id ∧ address ∈ addresses := by
  unfold named
  split_ifs with same <;> simp [same]

def State.LockedVault (s : State) (id : VaultId) : Prop :=
  ∃ v, s.vaults id = some v ∧ v.status = .locked

theorem lockedVault_of_named {v : Vault}
    (found : s.vaults vaultId = some v) (locked : v.status = .locked) :
    ∀ payee ∈ named id vaultId addresses, registers ∨ s.LockedVault id := by
  intro payee member
  obtain ⟨rfl, -⟩ := mem_named.mp member
  exact .inr ⟨v, found, locked⟩

theorem names_lockedVault {α : Type} {env : Env} {caller : Address} {rest : Vault → Contract α} :
    (loadOwnedLocked env vaultId caller >>= rest).wp s fun _ _ =>
      ∀ payee ∈ named id vaultId addresses, registers ∨ s.LockedVault id := by
  simp only [wp_rules]
  intro _ v found _ locked
  exact .const (lockedVault_of_named found locked)

theorem exec_payees (env : Env) (s : State) (id : VaultId) (call : Call) :
    (exec env call).wp s fun _ _ =>
      ∀ payee ∈ call.payees id, call.registersPayee id ∨ s.LockedVault id := by
  cases call with
  | record call =>
    cases call with
    | createWithdrawalEscrow => exact .const fun payee member => .inl (mem_named.mp member).1
    | setBeneficiaryVesting => exact .const fun payee member => .inl (mem_named.mp member).1
    | updateBeneficiary =>
      simp only [exec.eq_def, execRecord.eq_def, updateBeneficiary, wp_rules]
      intro _ v found _ _ locked _ _ _
      exact lockedVault_of_named found locked
    | initiateOwnershipTransfer =>
      rw [exec, execRecord, initiateOwnershipTransfer, wp_bind]
      exact assertNotPaused_readonly.wp fun _ => names_lockedVault
    | proposeMultisig =>
      rw [exec, execRecord, proposeMultisig, bind_assoc]
      exact names_lockedVault
    | setVestingStagger =>
      rw [exec, execRecord, setVestingStagger, wp_bind]
      exact assertNotPaused_readonly.wp fun _ => names_lockedVault
    | _ => exact .const (forall_mem_nil _)
  | setVestingForfeiture => exact .const fun payee member => .inl (mem_named.mp member).1
  | setBeneficiaries =>
    rw [exec, setBeneficiaries, wp_bind, requireAuth, wp_ensure]
    intro _
    rw [wp_bind, require, wp_ensure]
    exact fun _ => names_lockedVault
  | scheduleBeneficiaryRotation =>
    rw [exec, scheduleBeneficiaryRotation]
    exact names_lockedVault
  | addBeneficiary =>
    rw [exec, addBeneficiary]
    exact names_lockedVault
  | transferOwnership =>
    rw [exec, transferOwnership, wp_bind]
    exact assertNotPaused_readonly.wp fun _ => names_lockedVault
  | _ => exact .const (forall_mem_nil _)

/-! ### The property and the condition -/

def newPayouts (event : VaultEvent) : List Payout :=
  event.after.payouts.drop event.before.payouts.length

/-- An address that one of the events named as a payee. -/
def NamedIn (id : VaultId) (events : History) (address : Address) : Prop :=
  ∃ event ∈ events, address ∈ event.input.call.payees id

/-- **The owner is not paid** by the events after a release: no payment but a clawback goes to the
owner or to an address named since. -/
def OwnerUnpaid (id : VaultId) (later : History) : Prop :=
  ∀ until' event rest, later = until' ++ event :: rest →
    (∀ caller, event.input.call ≠ .clawbackUnvested id caller) →
    ∀ payout ∈ newPayouts event, payout.vaultId = id →
      ∃ v, event.before.vaults id = some v ∧ payout.payee ≠ v.owner ∧
        ¬ NamedIn id (until' ++ [event]) payout.payee

/-- The call is none of those that can pay the owner of a released vault. -/
structure Withheld (s : State) (id : VaultId) (call : Call) : Prop where
  approved : call ≠ .executeApprovedWithdrawal id
  withdrawal : executedOperation s id call ≠ some .withdraw
  cancellation : executedOperation s id call ≠ some .cancelVault
  registration : ¬ call.registersPayee id
  payee : ∀ v ∈ s.vaults id, ¬ Recorded s id v v.owner

/-! ### One step after the release -/

def State.ReleasedVault (s : State) (id : VaultId) : Prop :=
  ∃ v, s.vaults id = some v ∧ v.status = .released

section Effects

variable {env : Env} {call : Call} {s t : State} {id : VaultId}

theorem Effect.released (effect : Effect env call s t) (released : s.ReleasedVault id)
    (withheld : Withheld s id call) : t.ReleasedVault id := by
  obtain ⟨v, found, status⟩ := released
  obtain ⟨w, present, change⟩ := effect.vaults id v found
  rcases change.status with same | locked | ⟨executed, -⟩
  · exact ⟨w, present, same.trans status⟩
  · cases status.symm.trans locked
  · exact absurd executed withheld.cancellation

theorem Effect.payee_recorded (effect : Effect env call s t) {v : Vault}
    (found : s.vaults id = some v) (released : v.status = .released) (withheld : Withheld s id call)
    (notClawback : ∀ caller, call ≠ .clawbackUnvested id caller) {payout : Payout}
    (member : payout ∈ t.payouts.drop s.payouts.length) (same : payout.vaultId = id) :
    Recorded s id v payout.payee := by
  obtain ⟨paid, payouts, reasons⟩ := effect.payouts
  rw [payouts, drop_left] at member
  obtain ⟨v', found', reason⟩ := reasons payout member
  rw [same] at found' reason
  cases found.symm.trans found'
  rcases reason with locked | paysOwner | recorded
  · cases released.symm.trans locked
  · rcases paysOwner with approved | withdrawal | cancellation | ⟨caller, clawback⟩
    · exact absurd approved withheld.approved
    · exact absurd withdrawal withheld.withdrawal
    · exact absurd cancellation withheld.cancellation
    · exact absurd clawback (notClawback caller)
  · exact recorded

end Effects

theorem payees_of_withheld {host : Host} {t : State} {input : Invocation}
    (stepped : step host s input t) (released : s.ReleasedVault id)
    (withheld : Withheld s id input.call) (address : Address) :
    address ∉ input.call.payees id := by
  intro member
  rcases exec_payees input.env s id input.call () t stepped.2 address member with registers | locked
  · exact withheld.registration registers
  · obtain ⟨v, found, status⟩ := released
    obtain ⟨v', found', locked⟩ := locked
    cases found.symm.trans found'
    cases status.symm.trans locked

/-! ### Runs -/

/-- **After a release the owner is not paid**, in every run whose steps after it meet the condition.
-/
theorem ownerUnpaid_of_withheld {host : Host} {xlmToken admin : Address}
    {ledger : Ledger Address Address} {earlier later : History} {s t : State} {id : VaultId}
    {v : Vault} (run : ContractRun host (initialState xlmToken admin ledger) earlier s)
    (found : s.vaults id = some v) (released : v.status = .released)
    (rest : ContractRun host s later t)
    (withheld : ∀ event ∈ later, Withheld event.before id event.input.call) :
    OwnerUnpaid id later := by
  have regular : s.Regular := run_regular run (initialState_regular xlmToken admin ledger)
  -- the vault is released before every later step
  have stays : ∀ event ∈ later, event.before.Regular ∧ event.before.ReleasedVault id := by
    refine rest.invariant_before (fun u => u.Regular ∧ u.ReleasedVault id)
      (fun u input => Withheld u id input.call) ⟨regular, v, found, released⟩ ?_ withheld
    rintro u input u' ⟨regularU, releasedU⟩ allowed stepped
    exact ⟨step_regular regularU stepped, (step_effect regularU stepped).released releasedU allowed⟩
  rintro until' event remaining rfl notClawback payout member same
  have here : event ∈ until' ++ event :: remaining := mem_append_cons_self
  obtain ⟨regularHere, v', found', released'⟩ := stays event here
  have recorded := (step_effect regularHere (rest.stepped event here)).payee_recorded found' released'
    (withheld event here) notClawback member same
  refine ⟨v', found', ?_, ?_⟩
  · intro isOwner
    rw [isOwner] at recorded
    exact (withheld event here).payee v' found' recorded
  · rintro ⟨other, among, names⟩
    have inside : other ∈ until' ++ event :: remaining := by
      rw [← singleton_append, ← append_assoc]
      exact mem_append_left _ among
    exact payees_of_withheld (rest.stepped other inside) (stays other inside).2
      (withheld other inside) payout.payee names

def preparedWithdrawal : List Invocation :=
  [⟨plainEnv 1000 [⟨3⟩], .createVault ⟨3⟩ ⟨4⟩ 86400 none⟩,
   ⟨plainEnv 1001 [⟨3⟩], .deposit 1 ⟨3⟩ 100⟩,
   ⟨plainEnv 1002 [⟨3⟩], .record (.setVestingSchedule 1 ⟨3⟩ 2000 1000 2 100 0)⟩,
   ⟨plainEnv 1003 [⟨3⟩], .record (.configureMultisig 1 ⟨3⟩ [⟨5⟩] 2)⟩,
   ⟨plainEnv 1004 [⟨3⟩], .record (.proposeMultisig 1 ⟨3⟩ .withdraw (100 :: replicate 15 0) none)⟩,
   ⟨plainEnv 1005 [⟨5⟩], .record (.approveMultisig 1 1 ⟨5⟩)⟩,
   ⟨plainEnv 100000 [], .triggerRelease 1⟩]

theorem preparedWithdrawal_run :
    PlainRun (replay fundedState preparedWithdrawal).1
      (replay fundedState preparedWithdrawal).2 := by
  refine replay_run fundedState preparedWithdrawal ?_
  simp [preparedWithdrawal, plainEnv]

def vestedClaim : VaultEvent :=
  nextEvent fundedState preparedWithdrawal ⟨plainEnv 100001 [], .claimVestedInstallment 1⟩

theorem ownerUnpaid_vestedClaim :
    ((replay fundedState preparedWithdrawal).2.vaults 1).map (fun v => (v.status, v.balance)) =
        some (.released, 100) ∧
      newPayouts vestedClaim = [⟨1, ⟨1⟩, ⟨4⟩, 100⟩] ∧ OwnerUnpaid 1 [vestedClaim] := by
  refine ⟨rfl, rfl, ownerUnpaid_of_withheld preparedWithdrawal_run rfl rfl
    (nextEvent_run fundedState preparedWithdrawal ⟨plainEnv 100001 [], .claimVestedInstallment 1⟩ rfl)
    ?_⟩
  intro event member
  rw [mem_singleton.mp member]
  exact ⟨nofun, nofun, nofun, nofun, by decide +kernel⟩

def lateWithdrawal : VaultEvent :=
  nextEvent fundedState preparedWithdrawal ⟨plainEnv 100001 [⟨3⟩], .executeMultisig 1 1 ⟨3⟩⟩

/-- The whole balance kept for vesting goes to the owner. -/
theorem lateWithdrawal_pays_owner :
    PlainRun ((replay fundedState preparedWithdrawal).1 ++ [lateWithdrawal]) lateWithdrawal.after ∧
      ((replay fundedState preparedWithdrawal).2.vaults 1).map (fun v => (v.status, v.balance)) =
        some (.released, 100) ∧
      (lateWithdrawal.before.vaults 1).map Vault.owner = some ⟨3⟩ ∧
      newPayouts lateWithdrawal = [⟨1, ⟨1⟩, ⟨3⟩, 100⟩] ∧ ¬ OwnerUnpaid 1 [lateWithdrawal] := by
  have owner : (lateWithdrawal.before.vaults 1).map Vault.owner = some ⟨3⟩ := by decide +kernel
  have paid : newPayouts lateWithdrawal = [⟨1, ⟨1⟩, ⟨3⟩, 100⟩] := by decide +kernel
  refine ⟨.snoc preparedWithdrawal_run ⟨rfl, rfl⟩, by decide +kernel, owner, paid, fun unpaid => ?_⟩
  have member : (⟨1, ⟨1⟩, ⟨3⟩, 100⟩ : Payout) ∈ newPayouts lateWithdrawal := by
    rw [paid]
    exact mem_singleton.mpr rfl
  obtain ⟨v, found, notOwner, -⟩ := unpaid [] lateWithdrawal [] rfl (fun _ => nofun) _ member rfl
  rw [found] at owner
  exact notOwner (Option.some.inj owner).symm

end EthosContracts.TtlVault
