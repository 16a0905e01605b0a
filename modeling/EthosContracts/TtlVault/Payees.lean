/-
**Who is paid: the beneficiaries after the release, and after the last edit of their list.**

A request to change the primary beneficiary is made while the vault is locked, and carried out by a
second call that does not look at the status. A scheduled rotation is never taken off its list, so
that every check-in and every release applies the latest one that is in force once more.
-/

import EthosContracts.TtlVault.Isolation

namespace EthosContracts.TtlVault

open Lib Function List

/-! ### After the release -/

/-- A vault that is not locked keeps its primary beneficiary and its list. -/
def PayeesKept (s t : State) : Prop :=
  ∀ id v, s.vaults id = some v → v.status ≠ .locked → ∃ w, t.vaults id = some w ∧
    w.status ≠ .locked ∧ w.beneficiary = v.beneficiary ∧ w.beneficiaries = v.beneficiaries

/-- **The payees are fixed by the release**, between any two states of a run. -/
def PayeesFixed (host : Host) (start : State) (history : History) : Prop :=
  ∀ earlier middle later s t, history = earlier ++ middle ++ later →
    ContractRun host start earlier s → ContractRun host s middle t → PayeesKept s t

/-- The condition on one step: a request that is carried out on a vault that is not locked names the
beneficiary that the vault has. -/
def Confirms (s : State) (call : Call) : Prop :=
  ∀ id v, s.vaults id = some v → v.status ≠ .locked →
    ∀ address ∈ call.newBeneficiary s id, address = v.beneficiary

theorem PayeesKept.refl (s : State) : PayeesKept s s :=
  fun _ v found left => ⟨v, found, left, rfl, rfl⟩

theorem PayeesKept.trans (s t u : State) (first : PayeesKept s t) (second : PayeesKept t u) :
    PayeesKept s u := by
  intro id v found left
  obtain ⟨w, later, still, primary, list⟩ := first id v found left
  obtain ⟨x, last, unlocked, same, kept⟩ := second id w later still
  exact ⟨x, last, unlocked, same.trans primary, kept.trans list⟩

variable {s : State} {id : VaultId} {call : Call} {host : Host}

theorem exec_newBeneficiary (env : Env) {address : Address}
    (given : call.newBeneficiary s id = some address) :
    (exec env call).wp s fun _ t => ∃ w, t.vaults id = some w ∧ w.beneficiary = address := by
  cases call with
  | applyBeneficiaryUpdate vaultId caller =>
    rw [Call.newBeneficiary] at given
    split_ifs at given with same
    subst same
    simp only [exec.eq_def, applyBeneficiaryUpdate, wp_rules]
    intro _ v _ _ pending stored _
    rw [stored] at given
    obtain rfl := Option.some.inj given
    refine ⟨fun _ _ => Tx.wp.mono (moveBeneficiaryIndex_spec _ vaultId _ _) ?_,
      fun _ => Tx.wp.mono (moveBeneficiaryIndex_spec _ vaultId _ _) ?_⟩
    all_goals
      rintro _ _ rfl
      exact ⟨_, update_self .., rfl⟩
  | executeMultisig vaultId =>
    rw [Call.newBeneficiary] at given
    split_ifs at given with same
    subst same
    simp only [exec.eq_def, executeMultisig, loadProposal, setProposal, closeProposal, wp_rules]
    intro _ v _ _ proposal stored _ _
    rw [stored, Option.bind_some] at given
    split_ifs at given with operation
    unfold performOperation
    rw [operation]
    simp only [wp_rules]
    intro newBeneficiary named _
    obtain rfl := Option.some.inj (named.symm.trans given)
    refine Tx.wp.mono (moveBeneficiaryIndex_spec _ vaultId v.beneficiary newBeneficiary) ?_
    rintro _ _ rfl
    exact ⟨_, update_self .., rfl⟩
  | _ => cases given

theorem payeesKept_iff {t : State} {input : Invocation} (regular : s.Regular)
    (stepped : step host s input t) : PayeesKept s t ↔ Confirms s input.call := by
  constructor
  · intro kept id v found left address given
    obtain ⟨w, later, -, same, -⟩ := kept id v found left
    obtain ⟨w', later', is⟩ := exec_newBeneficiary input.env given _ _ stepped.2
    cases later.symm.trans later'
    exact is.symm.trans same
  · intro confirms id v found left
    obtain ⟨w, later, change⟩ := (step_effect regular stepped).vaults id v found
    rcases change.payees with locked | ⟨list, primary⟩
    · exact absurd locked left
    refine ⟨w, later, ?_, ?_, list⟩
    · rcases change.status with same | locked | ⟨-, cancelled⟩
      · rwa [same]
      · exact absurd locked left
      · rw [cancelled]
        exact nofun
    · rcases primary with same | named
      · exact same
      · obtain ⟨address, given⟩ := Option.isSome_iff_exists.mp named
        obtain ⟨w', later', is⟩ := exec_newBeneficiary input.env given _ _ stepped.2
        cases later.symm.trans later'
        exact is.trans (confirms id v found left address given)

/-- **When the payees are fixed by the release.** In every run: exactly if no call carries out a
request for another primary beneficiary on a vault that is not locked. -/
theorem payeesFixed_iff {host : Host} {xlmToken admin : Address} {ledger : Ledger Address Address}
    {history : History} {s : State}
    (run : ContractRun host (initialState xlmToken admin ledger) history s) :
    PayeesFixed host (initialState xlmToken admin ledger) history ↔
      ∀ event ∈ history, Confirms event.before event.input.call := by
  refine (run.between_iff PayeesKept.refl PayeesKept.trans).trans ?_
  refine forall₂_congr fun event member => ?_
  have regular := run_regular_before run (initialState_regular xlmToken admin ledger) event member
  exact payeesKept_iff regular (run.stepped event member)

def requestedUpdate : Scenario :=
  hundredOpened ++ [(1002, ⟨3⟩, twoInstallments 100),
    (1003, ⟨3⟩, .record (.updateBeneficiary 1 ⟨3⟩ ⟨5⟩)),
    (2000, ⟨3⟩, .triggerRelease 1)]

/-- As long as the request is not carried out the payees stay. -/
theorem payeesFixed_requestedUpdate :
    (played requestedUpdate).1.length = 7 ∧
      PayeesFixed plainHost fundedState (played requestedUpdate).1 := by
  refine ⟨by decide +kernel, (payeesFixed_iff (plainInputs_run requestedUpdate)).mpr ?_⟩
  intro event member id v _ _ address given
  obtain ⟨entry, listed, is⟩ := plainInputs_event member
  rw [is] at given
  simp only [requestedUpdate, hundredOpened, cons_append, nil_append, mem_cons,
    not_mem_nil, or_false] at listed
  rcases listed with rfl | rfl | rfl | rfl | rfl | rfl | rfl <;> cases given

/-- The request is carried out a day after it was made, and beneficiary `5` gets what vested for
`4`. -/
theorem updated_after_release :
    let s := (played (requestedUpdate ++
      [(90000, ⟨3⟩, .applyBeneficiaryUpdate 1 ⟨3⟩), (90001, ⟨5⟩, .claimVestedInstallment 1)])).2
    ((played requestedUpdate).2.vaults 1).map (fun v => (v.status, v.beneficiary)) =
        some (.released, ⟨4⟩) ∧
      (s.vaults 1).map (fun v => (v.status, v.beneficiary)) = some (.released, ⟨5⟩) ∧
      s.paidTo 1 ⟨5⟩ = 100 := by
  decide +kernel

/-! ### After an edit -/

def Call.edits (id : VaultId) : Call → Bool
  | .setBeneficiaries vaultId _ _ => vaultId = id
  | .addBeneficiary vaultId _ _ _ => vaultId = id
  | .removeBeneficiary vaultId _ _ => vaultId = id
  | _ => false

def Call.rotates (id : VaultId) : Call → Bool
  | .checkIn vaultId _ _ _ => vaultId = id
  | .triggerRelease vaultId => vaultId = id
  | _ => false

def State.rotation (s : State) (now : Nat) (id : VaultId) : Option BeneficiaryRotationEntry :=
  latestRotation now ((s.beneficiaries.rotationSchedule id).getD []) none

/-- What holds of every later check-in and release, given the time of an edit. -/
def AfterEdit (id : VaultId) (history : History) (holds : Nat → VaultEvent → Prop) : Prop :=
  ∀ earlier edit between event later, history = earlier ++ edit :: (between ++ event :: later) →
    edit.input.call.edits id = true → event.input.call.rotates id = true →
      holds edit.input.env.now event

/-- **The edit is not undone**: the list stays, or becomes that of a rotation in force that takes
effect after the edit. -/
def Respects (id : VaultId) (edited : Nat) (event : VaultEvent) : Prop :=
  ∀ v ∈ event.before.vaults id, ∀ w ∈ event.after.vaults id, w.beneficiaries = v.beneficiaries ∨
    ∃ rotation ∈ event.before.rotation event.input.env.now id,
      w.beneficiaries = rotation.newBeneficiaries ∧ edited < rotation.effectiveTimestamp

/-- A release that refunds the owner after a missed acceptance. -/
def Refunds (id : VaultId) (env : Env) (s : State) (call : Call) : Prop :=
  call = .triggerRelease id ∧ acceptanceMissed env (s.beneficiaries.conditionalAcceptance id) = true

/-- The rotation in force takes effect after the edit, or changes nothing. -/
def Overtaken (id : VaultId) (edited : Nat) (event : VaultEvent) : Prop :=
  Refunds id event.input.env event.before event.input.call ∨ ∀ v ∈ event.before.vaults id,
    ∀ rotation ∈ event.before.rotation event.input.env.now id, edited < rotation.effectiveTimestamp ∨
      rotation.newBeneficiaries = [] ∨ rotation.newBeneficiaries = v.beneficiaries

theorem exec_rotates (env : Env) (s : State) (rotates : call.rotates id = true) :
    (exec env call).wp s fun _ t => ∃ v w, s.vaults id = some v ∧ t.vaults id = some w ∧
      (Refunds id env s call ∧ w.beneficiaries = v.beneficiaries ∨ ¬ Refunds id env s call ∧
        w.beneficiaries = (rotatedVault env id s v).beneficiaries) := by
  cases call with
  | checkIn vaultId caller passkeyHash nonce =>
    obtain rfl : vaultId = id := of_decide_eq_true rotates
    simp only [exec.eq_def, checkIn, useDelegateNonce, wp_rules]
    intro _ _ v found _ _
    refine ⟨fun _ _ _ => Tx.wp.mono (recordCheckIn_spec env _ vaultId v passkeyHash) ?_,
      fun _ => Tx.wp.mono (recordCheckIn_spec env _ vaultId v passkeyHash) ?_⟩
    all_goals
      rintro _ _ ⟨-, u, balance, -, rfl⟩
      exact ⟨v, _, found, update_self .., .inr ⟨by rintro ⟨⟨⟩, _⟩, rfl⟩⟩
  | triggerRelease vaultId =>
    obtain rfl : vaultId = id := of_decide_eq_true rotates
    refine triggerReleaseInternal_wp env vaultId .expiry ?refund ?wait ?pay
    case refund =>
      intro v found _ missed
      simp only [refundMissedAcceptance, wp_rules]
      intro _ _
      exact ⟨v, _, found, update_self .., .inl ⟨⟨rfl, missed⟩, rfl⟩⟩
    case wait =>
      intro v found _ inTime _
      simp only [wp_rules]
      refine ⟨v, _, found, update_self .., .inr ⟨fun refunds => ?_, rfl⟩⟩
      exact Bool.false_ne_true (inTime.symm.trans refunds.2)
    case pay =>
      intro v found _ inTime _
      have paid : ¬ Refunds vaultId env s (.triggerRelease vaultId) :=
        fun refunds => Bool.false_ne_true (inTime.symm.trans refunds.2)
      simp only [releaseNow, setVaultDuplicate, wp_rules]
      intro _ _
      refine ⟨fun _ _ _ _ _ => ⟨fun _ => ?_, fun _ => ?_⟩, fun _ => ?_⟩
      · exact ⟨v, _, found, update_self .., .inr ⟨paid, rfl⟩⟩
      · exact ⟨v, _, found, update_self .., .inr ⟨paid, rfl⟩⟩
      · refine (distributeReleaseAmount_disbursed env vaultId _ _ .expiry _).mono ?_
        intro _ t _ _
        exact ⟨fun _ => ⟨v, _, found, update_self .., .inr ⟨paid, rfl⟩⟩,
          fun _ => ⟨v, _, found, update_self .., .inr ⟨paid, rfl⟩⟩⟩
  | _ => cases rotates

theorem respects_iff {edited : Nat} {event : VaultEvent}
    (stepped : step host event.before event.input event.after)
    (rotates : event.input.call.rotates id = true) :
    Respects id edited event ↔ Overtaken id edited event := by
  obtain ⟨v, w, found, later, applied⟩ := exec_rotates event.input.env _ rotates _ _ stepped.2
  simp only [Respects, Overtaken, found, later, Option.mem_some_iff, forall_eq']
  rcases applied with ⟨refunds, kept⟩ | ⟨paid, rotated⟩
  · exact iff_of_true (.inl kept) (.inl refunds)
  · rw [rotated, rotatedVault, rotatedBeneficiaries, or_iff_right paid, State.rotation]
    cases latestRotation event.input.env.now
      ((event.before.beneficiaries.rotationSchedule id).getD []) none with
    | none => exact iff_of_true (.inl rfl) nofun
    | some rotation =>
      simp only [Option.mem_some_iff, forall_eq', exists_eq_left']
      by_cases empty : rotation.newBeneficiaries = []
      · simp only [empty, if_true, true_or, or_true]
      · simp only [empty, if_false, true_and, false_or]
        exact or_comm

/-- **When an edit of the list is not undone by an earlier rotation.** In every run: exactly if at
every check-in and release after an edit the rotation in force takes effect after the edit, or
changes nothing. -/
theorem afterEdit_iff {host : Host} {start s : State} {history : History} {id : VaultId}
    (run : ContractRun host start history s) :
    AfterEdit id history (Respects id) ↔ AfterEdit id history (Overtaken id) := by
  unfold AfterEdit
  refine forall_congr' fun earlier => forall_congr' fun edit => forall_congr' fun between =>
    forall₃_congr fun event later whole => forall₂_congr fun _ rotates => ?_
  rw [← cons_append, ← append_assoc] at whole
  exact respects_iff (run.at_split whole).2.1 rotates

def scheduledRotation : Scenario :=
  hundredOpened ++ [(1002, ⟨3⟩, .scheduleBeneficiaryRotation 1 ⟨3⟩ 1500 [⟨⟨6⟩, 10000, 0⟩])]

def earlyEdit : Scenario :=
  scheduledRotation ++ [(1400, ⟨3⟩, .setBeneficiaries 1 ⟨3⟩ [⟨⟨4⟩, 10000, 0⟩]),
    (1580, ⟨3⟩, .checkIn 1 ⟨3⟩ [] 0)]

theorem afterEdit_earlyEdit : (played earlyEdit).1.length = 7 ∧
    AfterEdit 1 (played earlyEdit).1 (Respects 1) := by
  have edited : ∀ edit ∈ (played earlyEdit).1, edit.input.call.edits 1 = true →
      edit.input.env.now = 1400 := by decide +kernel
  have inForce : ∀ event ∈ (played earlyEdit).1, event.input.call.rotates 1 = true →
      ∀ rotation ∈ event.before.rotation event.input.env.now 1,
        1400 < rotation.effectiveTimestamp := by decide +kernel
  refine ⟨by decide +kernel, (afterEdit_iff (plainInputs_run earlyEdit)).mpr ?_⟩
  intro earlier edit between event later whole edits rotates
  refine .inr fun v _ rotation now => .inl ?_
  rw [edited edit (by rw [whole]; simp) edits]
  exact inForce event (by rw [whole]; simp) rotates rotation now

def lateEdit : VaultEvent :=
  nextEvent fundedState (plainInputs scheduledRotation)
    ⟨plainEnv 1550 [⟨3⟩], .setBeneficiaries 1 ⟨3⟩ [⟨⟨4⟩, 10000, 0⟩]⟩

def undoingCheckIn : VaultEvent where
  before := lateEdit.after
  input := ⟨plainEnv 1580 [⟨3⟩], .checkIn 1 ⟨3⟩ [] 0⟩
  after := (exec (plainEnv 1580 [⟨3⟩]) (.checkIn 1 ⟨3⟩ [] 0)).after lateEdit.after

/-- The check-in brings back the list `6`. -/
theorem rotation_undoes_edit :
    PlainRun
        ((played scheduledRotation).1 ++ [lateEdit] ++ [undoingCheckIn])
        undoingCheckIn.after ∧
      (lateEdit.after.vaults 1).map (·.beneficiaries) = some [⟨⟨4⟩, 10000, 0⟩] ∧
      (undoingCheckIn.after.vaults 1).map (·.beneficiaries) = some [⟨⟨6⟩, 10000, 0⟩] ∧
      ¬ AfterEdit 1
        ((played scheduledRotation).1 ++ [lateEdit] ++ [undoingCheckIn])
        (Respects 1) := by
  refine ⟨.snoc (.snoc (plainInputs_run scheduledRotation) ⟨rfl, Tx.eq_ok_after (by decide +kernel)⟩)
    ⟨rfl, Tx.eq_ok_after (by decide +kernel)⟩, rfl, rfl, fun respected => ?_⟩
  rcases respected _ lateEdit [] undoingCheckIn [] (append_assoc ..) rfl rfl _ rfl _ rfl with
    same | ⟨rotation, inForce, -, late⟩
  · cases same
  · cases inForce
    exact absurd late (by decide)

end EthosContracts.TtlVault
