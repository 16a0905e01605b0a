/-
**The outcomes of the calls that move money**: deposits, withdrawals, their undoing, releases and
multi-signature operations.

* Deposits, withdrawals and releases look for a locked vault first, so nothing is said about whom
  they pay.
* The second steps of the two-step withdrawals (`verify_withdrawal_escrow`,
  `execute_approved_withdrawal`, `execute_scheduled_withdrawal`, `execute_multisig`) take the vault
  in any status. Out of a vault that is not locked they pay a payee on record, or the owner by a
  call that `PaysOwner` names.
-/

import EthosContracts.TtlVault.OutcomeSettings

namespace EthosContracts.TtlVault

open Lib Function List

section Money

variable (env : Env) (s : State) (id : VaultId) (caller : Address)

/-! ### Deposits -/

@[simp] theorem deposit_outcome (sender : Address) (amount : Int) :
    HasOutcome env s (.deposit id sender amount) := by
  simp only [HasOutcome, exec.eq_def, deposit, wp_rules]
  intro _ _ _ _ v found _ _ _ _ _ locked _ _
  refine (assertBelowDepositCap_readonly v amount).wp fun _ => ?_
  intro _ _ _
  exact .of_setting found rfl rfl rfl rfl locked rfl

theorem writeBack_of_mem {validated : List ValidatedDeposit} {id : VaultId}
    (member : id ∈ validated.map (·.vaultId)) : ∀ vaults : VaultId → Option Vault,
    ∃ entry ∈ validated, entry.vaultId = id ∧
      writeBack validated vaults id = some entry.credited := by
  induction validated with
  | nil => exact absurd member not_mem_nil
  | cons head rest ih =>
    intro vaults
    rw [writeBack]
    by_cases later : id ∈ rest.map (·.vaultId)
    · obtain ⟨entry, listed, same, written⟩ := ih later
        (update vaults head.vaultId (some head.credited))
      exact ⟨entry, mem_cons_of_mem head listed, same, written⟩
    · have same : id = head.vaultId := by
        rcases mem_cons.mp member with here | below
        · exact here
        · exact absurd below later
      refine ⟨head, mem_cons_self, same.symm, ?_⟩
      rw [writeBack_of_notMem later, same, update_self]

@[simp] theorem batchDeposit_outcome (sender : Address) (deposits : List (VaultId × Int)) :
    HasOutcome env s (.batchDeposit sender deposits) := by
  simp only [HasOutcome, exec.eq_def, batchDeposit, wp_rules]
  intro _ _ token _
  refine (validateDeposits_spec env deposits 0 s).mono ?_
  rintro validated t ⟨rfl, -, checked, -⟩
  refine ⟨fun _ => .of_frame rfl rfl rfl, fun _ ledger _ => ?_⟩
  refine (applyDeposits_spec token validated.1 _).mono ?_
  rintro _ u ⟨rfl, -⟩
  refine .of_vaults ?_ ?_ rfl ⟨[], (append_nil _).symm, forall_mem_nil _⟩
  · intro id v found
    by_cases member : id ∈ validated.1.map (·.vaultId)
    · obtain ⟨entry, listed, rfl, written⟩ := writeBack_of_mem member t.vaults
      have accepted := checked entry listed
      cases accepted.stored.symm.trans found
      exact ⟨entry.credited, written, .of_kept accepted.locked accepted.locked rfl, rfl⟩
    · exact ⟨v, (writeBack_of_notMem member t.vaults).trans found, .refl, rfl⟩
  · intro id absent
    have unlisted : id ∉ validated.1.map (·.vaultId) := by
      intro member
      obtain ⟨entry, listed, rfl⟩ := mem_map.mp member
      rw [(checked entry listed).stored] at absent
      cases absent
    exact (writeBack_of_notMem unlisted t.vaults).trans absent

/-! ### Withdrawals of the owner -/

@[simp]
theorem withdraw_outcome (amount : Int) : HasOutcome env s (.withdraw id caller amount) := by
  simp only [HasOutcome, exec.eq_def, withdraw, wp_rules]
  intro _ _ _ v found _ _ _ locked _ _ _
  refine (checkWithdrawalLimits_frame env id amount s).mono ?_
  rintro _ _ ⟨tracker, rfl⟩
  simp only [recordWithdrawalForReversal, wp_rules]
  intros
  exact .of_payment found rfl rfl rfl rfl (.inl locked) (.of_kept locked locked rfl)

@[simp] theorem partialLiquidate_outcome (amount : Int) (percentageAllowed : Nat) :
    HasOutcome env s (.partialLiquidate id amount percentageAllowed) := by
  simp only [HasOutcome, exec.eq_def, partialLiquidate, wp_rules]
  intro _ _ _ v found _ _ _ locked
  intros
  exact .of_payment found rfl rfl rfl rfl (.inl locked) (.of_kept locked locked rfl)

theorem applyWithdrawals_payouts (token : Address) (entries : List (VaultId × Int)) : ∀ s,
    (applyWithdrawals env caller token entries).wp s fun _ t =>
      ∃ new, t.payouts = s.payouts ++ new ∧
        ∀ payout ∈ new, ∃ entry ∈ entries, payout.vaultId = entry.1 := by
  unfold applyWithdrawals
  induction entries with
  | nil =>
    intro s
    rw [wp_forM_nil]
    exact ⟨[], (append_nil _).symm, nofun⟩
  | cons entry rest ih =>
    intro s
    rw [wp_forM_cons]
    simp only [wp_rules]
    intro v _ _ _ _ _ _ _
    refine (ih _).mono ?_
    rintro _ t ⟨new, paid, listed⟩
    refine ⟨⟨entry.1, token, v.owner, entry.2⟩ :: new, ?_, ?_⟩
    · rw [paid, append_assoc, singleton_append]
    · intro payout member
      rcases mem_cons.mp member with here | later
      · exact ⟨entry, mem_cons_self, by rw [here]⟩
      · obtain ⟨other, below, same⟩ := listed payout later
        exact ⟨other, mem_cons_of_mem entry below, same⟩

@[simp] theorem batchWithdraw_outcome (vaultIds : List VaultId) (amounts : List Int) :
    HasOutcome env s (.batchWithdraw vaultIds amounts caller) := by
  simp only [HasOutcome, exec.eq_def, batchWithdraw, wp_rules]
  intro _ _ _
  refine (validateWithdrawals_spec env caller _ s).mono ?_
  rintro _ s' ⟨rfl, checked⟩ token _
  refine ((applyWithdrawals_spec env caller token _ s').and
    (applyWithdrawals_payouts env caller token _ s')).mono ?_
  rintro _ t ⟨⟨⟨vaults, ledger, payouts, auditLog, rfl⟩, debited⟩, new, paid, listed⟩
  refine .of_vaults ?_ ?_ rfl ⟨new, paid, fun payout member => ?_⟩
  · intro id v found
    refine ⟨v.debit (TtlVault.listed (vaultIds.zip amounts) id), ?_, ?_, rfl⟩
    · rw [debited id, found]
      rfl
    · by_cases member : id ∈ (vaultIds.zip amounts).map Prod.fst
      · obtain ⟨entry, inside, rfl⟩ := mem_map.mp member
        obtain ⟨vault, stored, -, locked, -⟩ := (checked entry inside).vault
        cases stored.symm.trans found
        exact .of_kept locked locked rfl
      · rw [listed_of_notMem member]
        exact .of_settings rfl rfl (Int.sub_zero _) rfl ⟨rfl, .inl rfl⟩
  · intro id absent
    rw [debited id, absent]
    rfl
  · obtain ⟨entry, inside, same⟩ := listed payout member
    obtain ⟨vault, stored, -, locked, -⟩ := (checked entry inside).vault
    unfold Paid
    rw [same]
    exact ⟨vault, stored, .inl locked⟩

/-! ### Withdrawals in several steps, and their undoing -/

@[simp] theorem verifyWithdrawalEscrow_outcome :
    HasOutcome env s (.verifyWithdrawalEscrow id caller) := by
  simp only [HasOutcome, exec.eq_def, verifyWithdrawalEscrow, wp_rules]
  intro _ v found escrow stored _ _ _ _ _ _
  refine .of_payment found rfl rfl rfl rfl (.inr (.inr (.escrow stored)))
    (.of_balance rfl rfl rfl ⟨rfl, .inl rfl⟩ fun _ zero => ?_)
  by_cases nothing : escrow.amount = 0
  · left
    show v.balance - escrow.amount = 0
    rw [zero, nothing, Int.sub_zero]
  · exact .inr ⟨rfl, escrow, stored, nothing⟩

@[simp] theorem executeApprovedWithdrawal_outcome :
    HasOutcome env s (.executeApprovedWithdrawal id) := by
  simp only [HasOutcome, exec.eq_def, executeApprovedWithdrawal, setApprovalRequest, wp_rules]
  intro request _ _ v found enough _ moved _
  refine .of_payment found rfl rfl rfl rfl (.inr (.inl (.inl rfl)))
    (.of_balance rfl rfl rfl ⟨rfl, .inl rfl⟩ fun _ zero => .inl ?_)
  have nonneg : 0 ≤ request.amount := (Ledger.transfer_eq_some.mp moved).1.1
  show v.balance - request.amount = 0
  omega

@[simp] theorem rollbackWithdrawal_outcome (amount : Int) :
    HasOutcome env s (.rollbackWithdrawal id amount caller) := by
  simp only [HasOutcome, exec.eq_def, rollbackWithdrawal, wp_rules]
  intro _ _ v found _ _
  exact .of_save found rfl rfl rfl rfl (.of_balance rfl rfl rfl ⟨rfl, .inl rfl⟩ fun _ _ => .inr rfl)

@[simp] theorem reverseWithdrawal_outcome (withdrawalId : Nat) :
    HasOutcome env s (.reverseWithdrawal id caller withdrawalId) := by
  simp only [HasOutcome, exec.eq_def, reverseWithdrawal, wp_rules]
  intro _ _ v found _ record stored _ _ _
  refine .of_save found rfl rfl rfl rfl (.of_balance rfl rfl rfl ⟨rfl, .inl rfl⟩ fun _ zero => ?_)
  by_cases nothing : record.amount = 0
  · left
    show v.balance + record.amount = 0
    rw [zero, nothing, Int.add_zero]
  · exact .inr ⟨rfl, record, stored, nothing⟩

theorem runSchedule_spec (token payee : Address) (schedule : List WithdrawalScheduleEntry) :
    ∀ (balance : Int) (s : State),
    (runSchedule env id token payee schedule balance).wp s fun result t =>
      Disbursed id (· = payee) s t ∧ (result.2 = balance ∨ 0 < balance) := by
  induction schedule with
  | nil =>
    intro balance s
    rw [runSchedule, wp_pure]
    exact ⟨.refl, .inl rfl⟩
  | cons entry rest ih =>
    intro balance s
    simp only [runSchedule, wp_rules]
    refine ⟨fun due enough _ after _ _ => ?_, fun _ => ?_⟩
    · refine (ih _ _).mono ?_
      rintro result t ⟨later, -⟩
      have pos : 0 < entry.amount := by
        rw [WithdrawalScheduleEntry.due, decide_eq_true_eq] at due
        exact due.2
      refine ⟨.trans ?_ later, .inr (by omega)⟩
      exact .single rfl
    · exact (ih balance s).mono fun result t later => later

@[simp] theorem executeScheduledWithdrawal_outcome :
    HasOutcome env s (.executeScheduledWithdrawal id) := by
  simp only [HasOutcome, exec.eq_def, executeScheduledWithdrawal, wp_rules]
  intro _ v found schedule _
  refine (runSchedule_spec env id v.tokenAddress v.beneficiary schedule v.balance s).mono ?_
  rintro result t ⟨disbursed, spent⟩ _
  rw [disbursed.frame]
  refine .of_disbursed found rfl rfl rfl disbursed rfl rfl ?_
    (.of_balance rfl rfl rfl ⟨rfl, .inl rfl⟩ fun _ zero => .inl ?_)
  · rintro _ rfl
    exact .inr (.inr .beneficiary)
  · show result.2 = 0
    omega

end Money

/-! ### Rotations -/

/-- At most scheduled rotations lead from `s` to `t`. -/
structure Rotates (s t : State) : Prop where
  books : t.books = s.books
  passkeys : ∀ id, (t.vaults id).map (·.passkeyHash) = (s.vaults id).map (·.passkeyHash)
  terms : ∀ id, t.tenure.terms id = s.tenure.terms id ∨ ∃ v addresses, s.vaults id = some v ∧
    v.status = .locked ∧ Scheduled s id addresses ∧
    t.tenure.terms id = some { v.terms with beneficiaries := addresses }

namespace Rotates

variable {s t u : State} {id : VaultId} {v w : Vault}

theorem refl : Rotates s s := ⟨rfl, fun _ => rfl, fun _ => .inl rfl⟩

variable (rotates : Rotates s t)
include rotates

theorem schedule : t.beneficiaries.rotationSchedule = s.beneficiaries.rotationSchedule :=
  congrArg Books.rotationSchedule rotates.books

theorem before (found : t.vaults id = some v) :
    ∃ earlier addresses, s.vaults id = some earlier ∧
      v.terms = { earlier.terms with beneficiaries := addresses } := by
  have stored := terms_of_found found
  rcases rotates.terms id with same | ⟨earlier, addresses, foundEarlier, _, _, rotated⟩
  · obtain ⟨earlier, foundEarlier, terms⟩ := Option.map_eq_some_iff.mp (same.symm.trans stored)
    exact ⟨earlier, earlier.terms.beneficiaries, foundEarlier, terms.symm⟩
  · exact ⟨earlier, addresses, foundEarlier, Option.mem_unique stored rotated⟩

theorem save (env : Env) (found : t.vaults id = some v) (locked : v.status = .locked)
    (vaults : u.vaults = update t.vaults id (some w)) (passkey : w.passkeyHash = v.passkeyHash)
    (rotated : w.terms = { v.terms with
      beneficiaries := (rotatedBeneficiaries env.now (t.beneficiaries.rotationSchedule id)
        v.beneficiaries).map (·.address) })
    (books : u.books = t.books) : Rotates s u := by
  have stored := terms_of_found found
  have terms : u.tenure.terms = update t.tenure.terms id (some w.terms) :=
    congrArg Tenure.terms (tenure_save vaults rfl)
  refine ⟨books.trans rotates.books, fun other => ?_, fun other => ?_⟩
  · rw [vaults, ← rotates.passkeys other]
    by_cases same : other = id
    · rw [same, update_self, found, Option.map_some, Option.map_some, passkey]
    · rw [update_of_ne same]
  · rw [terms]
    by_cases same : other = id
    · subst same
      rw [update_self]
      rcases rotatedBeneficiaries_cases env.now (t.beneficiaries.rotationSchedule other)
        v.beneficiaries with unrotated | ⟨entries, inForce, rotation, member, applied⟩
      · -- nothing is due: the terms are the ones before this rotation
        have kept : w.terms = v.terms := by
          rw [rotated, unrotated]
          rfl
        rw [kept, ← stored]
        exact rotates.terms other
      · obtain ⟨earlier, addresses, foundEarlier, same⟩ := rotates.before found
        have status : earlier.status = .locked := by
          rw [← locked]
          exact (congrArg Terms.status same).symm
        refine .inr ⟨earlier, rotation.newBeneficiaries.map (·.address), foundEarlier, status,
          ⟨entries, rotates.schedule ▸ inForce, rotation, member, rfl⟩, ?_⟩
        rw [rotated, applied, same]
    · rw [update_of_ne same]
      exact rotates.terms other

theorem controlled (env : Env) (call : Call) : Controlled env call s t := by
  have books := rotates.books
  simp only [State.books, Books.mk.injEq] at books
  obtain ⟨count, owners, beneficiaries, duplicates, ownership, update, rotation, multiSig, keyBooks,
    hibernation⟩ := books
  have tenure : t.tenure = { s.tenure with terms := t.tenure.terms } := by
    rw [State.tenure, count, owners, beneficiaries, duplicates, ownership, update, rotation]
    rfl
  refine .of_tenureOnly ⟨?_, keys_eq keyBooks fun id => ?_, hibernation, fun id => ?_⟩ multiSig
  · rw [tenure]
    exact .rotated rotates.terms
  · have same := congrArg (·.bind fun passkey => passkey) (rotates.passkeys id)
    rw [Option.bind_map, Option.bind_map] at same
    exact same
  · have same := congrArg Option.isSome (rotates.passkeys id)
    rwa [Option.isSome_map, Option.isSome_map] at same

end Rotates

section Releases

variable (env : Env) (s : State) (id : VaultId) (caller : Address)

/-! ### Releases -/

theorem releaseNow_outcome {call : Call} {v : Vault} (found : s.vaults id = some v)
    (locked : v.status = .locked) (releases : id ∈ call.releases) (mode : ReleaseTrigger) :
    (releaseNow env id (rotatedVault env id s v) mode).wp (s.attempted id)
      fun _ t => Outcome env call s t := by
  have released : ∀ (t : State) (balance : Int), t.vaults = update s.vaults id
        (some { rotatedVault env id s v with balance := balance, status := .released }) →
      t.multiSig = s.multiSig → t.keyBooks = s.keyBooks →
      t.checkIns.hibernation = s.checkIns.hibernation →
      { t.tenure with terms := s.tenure.terms } = s.tenure.mark v.terms none →
      Controlled env call s t := by
    intro t balance vaults multiSig keyBooks hibernation rest
    refine .of_tenure found vaults rfl multiSig keyBooks hibernation rest ?_
    exact .paid (v := v) found locked releases
  have partly : ∀ (t : State) (balance : Int), t.vaults = update s.vaults id
        (some { rotatedVault env id s v with balance := balance }) →
      t.books = s.books → Controlled env call s t := by
    intro t balance vaults books
    exact (Rotates.refl.save env found locked vaults rfl rfl books).controlled env call
  have changed : ∀ new : Vault, new.status = .released ∨ new.status = .locked →
      new.deadline = v.deadline → Change env s call id v new := by
    intro new kept deadline
    refine .of_locked locked (fun cancelled => ?_) deadline
    rcases kept with kept | kept <;> cases kept.symm.trans cancelled
  simp only [releaseNow, setVaultDuplicate, wp_rules]
  intro _ _
  refine ⟨fun _ _ after moved _ => ⟨fun _ => ?_, fun _ => ?_⟩, fun _ => ?_⟩
  · exact ⟨fun _ => .of_payment found rfl rfl rfl rfl (.inl locked) (changed _ (.inl rfl) rfl),
      released _ _ rfl rfl rfl rfl rfl, rfl⟩
  · exact ⟨fun _ => .of_payment found rfl rfl rfl rfl (.inl locked) (changed _ (.inr locked) rfl),
      partly _ _ rfl rfl, rfl⟩
  · refine (distributeReleaseAmount_disbursed env id _ _ mode _).mono ?_
    intro _ t disbursed _
    rw [disbursed.frame]
    refine ⟨fun _ => ⟨fun _ => ?_, released _ _ rfl rfl rfl rfl rfl, rfl⟩,
      fun _ => ⟨fun _ => ?_, partly _ _ rfl rfl, rfl⟩⟩
    · exact .of_disbursed found rfl rfl rfl disbursed rfl rfl (fun _ _ => .inl locked)
        (changed _ (.inl rfl) rfl)
    · exact .of_disbursed found rfl rfl rfl disbursed rfl rfl (fun _ _ => .inl locked)
        (changed _ (.inr locked) rfl)

theorem triggerReleaseInternal_outcome {call : Call} (releases : id ∈ call.releases)
    (mode : ReleaseTrigger) :
    (triggerReleaseInternal env id mode).wp s fun _ t => Outcome env call s t := by
  refine triggerReleaseInternal_wp env id mode ?refund ?wait ?pay
  case refund =>
    intro v found locked missed
    simp only [refundMissedAcceptance, wp_rules]
    intro _ _
    refine ⟨fun _ => .of_payment found rfl rfl rfl rfl (.inl locked)
      (.of_locked locked (fun _ => rfl) rfl),
      .of_tenure found rfl rfl rfl rfl rfl rfl ?_, rfl⟩
    exact .refunded found locked releases missed
  case wait =>
    intro v found locked _ vesting
    simp only [wp_rules]
    refine ⟨fun _ => .of_save found rfl rfl rfl rfl (.of_locked locked (fun cancelled => ?_) rfl),
      .of_tenure found rfl rfl rfl rfl rfl rfl ?_, rfl⟩
    · cases cancelled
    · exact .released (v := v) found locked (.inl ⟨releases, vesting⟩)
  case pay =>
    intro v found locked _ _
    exact releaseNow_outcome env s id found locked releases mode

@[simp] theorem panicRelease_outcome : HasOutcome env s (.panicRelease id caller) := by
  simp only [HasOutcome, exec.eq_def, panicRelease, wp_rules]
  intro _ _ _ _
  exact triggerReleaseInternal_outcome env s id mem_cons_self .manual

@[simp] theorem partialRelease_outcome (amount : Int) :
    HasOutcome env s (.partialRelease id amount) := by
  simp only [HasOutcome, exec.eq_def, partialRelease, wp_rules]
  intro _ _ v found _ locked
  refine (isExpired_readonly env id).wp fun _ => ?_
  intro _ _
  refine (payBeneficiaries_disbursed env id v amount s).mono ?_
  intro _ t disbursed _
  rw [disbursed.frame]
  exact .of_disbursed found rfl rfl rfl disbursed rfl rfl (fun _ _ => .inl locked)
    (.of_kept locked locked rfl)

@[simp] theorem revealBeneficiary_outcome (proof : Bytes) (claim : Address) :
    HasOutcome env s (.revealBeneficiary id proof claim) := by
  simp only [HasOutcome, exec.eq_def, revealBeneficiary, wp_rules]
  intro _ _ _ v found locked
  refine (isExpired_readonly env id).wp fun _ => ?_
  intros
  refine ⟨fun _ => .of_payment found rfl rfl rfl rfl (.inl locked)
    (.of_locked locked (fun _ => rfl) rfl),
    .of_tenure found rfl rfl rfl rfl rfl rfl ?_, rfl⟩
  exact .released found locked (.inr ⟨proof, claim, rfl⟩)

/-! ### Cancellation and decline -/

theorem refundOwner_disbursed (vault : Vault) (s : State) :
    (refundOwner env id vault).wp s fun _ t => Disbursed id (· = vault.owner) s t := by
  simp only [refundOwner, wp_rules]
  exact ⟨fun _ _ _ => .single rfl, fun _ => .refl⟩

@[simp] theorem cancelVault_outcome : HasOutcome env s (.cancelVault id caller) := by
  simp only [HasOutcome, exec.eq_def, cancelVault, removeOwnerVaultId, removeBeneficiaryVaultId,
    setVaultDuplicate, wp_rules]
  intro _ _ v found _ _ locked unconfigured
  refine (refundOwner_disbursed env id v s).mono ?_
  intro _ t disbursed
  rw [disbursed.frame]
  refine ⟨fun _ => .of_disbursed found rfl rfl rfl disbursed rfl rfl (fun _ _ => .inl locked)
    (.of_locked locked (fun _ => rfl) rfl), .of_tenure found rfl rfl rfl rfl rfl rfl ?_,
    rfl⟩
  exact .cancelled found locked (Option.isNone_iff_eq_none.mp unconfigured)

theorem forfeitUnvested_outcome {v : Vault} (found : s.vaults id = some v)
    {answers : BeneficiaryState} (rest : { s with beneficiaries := answers }.rest
      (.declineBeneficiaryRole id caller) = s.rest (.declineBeneficiaryRole id caller)) :
    (forfeitUnvested env id v).wp { s with beneficiaries := answers } fun _ t =>
      Outcome env (.declineBeneficiaryRole id caller) s t := by
  simp only [forfeitUnvested, wp_rules]
  split
  · rename_i config schedule stored scheduled
    simp only [unvestedAmount, wp_rules]
    refine ⟨fun _ => .of_frame rfl rest rfl, fun kept _ _ _ => ⟨fun unvested _ _ _ _ => ?_,
      fun _ => .of_frame rfl rest rfl⟩⟩
    refine .of_payment found rfl rest rfl rfl (.inr (.inr (.forfeiture stored)))
      (.of_balance rfl rfl rfl ⟨rfl, .inl rfl⟩ fun _ _ => .inr ?_)
    exact ⟨rfl, config, schedule, stored, Bool.eq_false_iff.mpr kept, scheduled, unvested⟩
  · rw [wp_pure]
    exact .of_frame rfl rest rfl

@[simp] theorem declineBeneficiaryRole_outcome :
    HasOutcome env s (.declineBeneficiaryRole id caller) := by
  simp only [HasOutcome, exec.eq_def, declineBeneficiaryRole, setBeneficiaryStatus, wp_rules]
  intro _ v found _
  exact ⟨fun _ => forfeitUnvested_outcome env s id caller found rfl,
    fun _ => forfeitUnvested_outcome env s id caller found rfl⟩

end Releases

section Proposals

variable (env : Env) (s : State) (id : VaultId) (caller : Address)

theorem performOperation_outcome {v : Vault} (found : s.vaults id = some v)
    (signed : v.owner ∈ env.signers) {proposalId : Nat} {proposal : MultiSigProposal}
    (stored : s.multiSig.proposal id proposalId = some proposal) (proposals : MultiSigState) :
    (performOperation env id v proposal).wp { s with multiSig := proposals } fun _ t =>
      Effect env (.executeMultisig id proposalId caller) s t ∧
        TenureOnly env (.executeMultisig id proposalId caller) s t ∧
        t.multiSig = proposals ∧ t.sideBooks = s.sideBooks := by
  have executed : executedOperation s id (.executeMultisig id proposalId caller) =
      some proposal.operation := by
    rw [executedOperation, if_pos rfl, stored]
    rfl
  have kept : ∀ new : Vault, new.status = v.status → new.balance = v.balance →
      new.status = .cancelled → new.balance = 0 ∨ (v.status = .cancelled ∧ (v.balance = 0 →
        Refills s id (.executeMultisig id proposalId caller))) := by
    intro new status balance
    exact empty_of_status status fun _ zero => .inl (balance.trans zero)
  unfold performOperation
  cases operation : proposal.operation with
  | withdraw =>
    rw [operation] at executed
    simp only [decodeI128, doWithdraw, wp_rules]
    intro _ pos enough _ _ _
    refine ⟨.of_payment found rfl rfl rfl rfl (.inr (.inl (.inr (.inl executed))))
      (.of_balance rfl rfl rfl ⟨rfl, .inl rfl⟩ fun _ zero => ?_),
      .of_kept found rfl rfl rfl rfl rfl rfl, trivial, rfl⟩
    omega
  | updateBeneficiary =>
    rw [operation] at executed
    simp only [wp_rules]
    intro newBeneficiary named ne
    have given : (Call.executeMultisig id proposalId caller).newBeneficiary s id =
        some newBeneficiary := by
      rw [Call.newBeneficiary, if_pos rfl, stored, Option.bind_some, if_pos operation, named]
    refine Tx.wp.mono (moveBeneficiaryIndex_spec _ id v.beneficiary newBeneficiary) ?_
    rintro _ _ rfl
    refine ⟨.of_save found rfl rfl rfl rfl
      (.of_settings rfl rfl rfl rfl ⟨rfl, .inr (Option.isSome_of_eq_some given)⟩),
      .of_save found rfl rfl rfl rfl rfl ?_, rfl, rfl⟩
    exact .renamed found executed ne
  | cancelVault =>
    rw [operation] at executed
    simp only [removeOwnerVaultId, removeBeneficiaryVaultId, wp_rules]
    refine (refundOwner_disbursed env id v _).mono ?_
    intro _ t disbursed
    rw [disbursed.frame]
    refine ⟨.of_disbursed found rfl rfl rfl disbursed rfl rfl
      (fun _ _ => .inr (.inl (.inr (.inr (.inl executed)))))
      (.of_deadline (.inr (.inr ⟨executed, rfl⟩)) (fun _ => .inl rfl) (.inl rfl) rfl
        (.inr ⟨rfl, .inl rfl⟩)),
      .of_save found rfl rfl rfl rfl rfl ?_, rfl, rfl⟩
    exact .executedCancel found executed
  | transferOwnership =>
    rw [operation] at executed
    simp only [wp_rules]
    intro newOwner named _
    refine Tx.wp.mono (moveOwnerIndex_spec _ id v.owner newOwner) ?_
    rintro _ _ rfl
    refine ⟨.of_save found rfl rfl rfl rfl
      (.of_deadline (.inl rfl) (kept _ rfl rfl) (.inr (.inr executed)) rfl (.inr ⟨rfl, .inl rfl⟩)),
      .of_save found rfl rfl rfl rfl rfl ?_, rfl, rfl⟩
    refine .transferred found ?_ (.inr executed)
    rw [Call.newOwner, if_pos rfl, stored, Option.bind_some, if_pos operation, named]
  | updateCheckInInterval =>
    rw [operation] at executed
    simp only [decodeU64, wp_rules]
    intros
    refine ⟨.of_save found rfl rfl rfl rfl ?_, .of_save found rfl rfl rfl rfl rfl ?_, trivial, rfl⟩
    · exact ⟨.inl rfl, kept _ rfl rfl, .inl rfl, fun _ => .owner signed, fun _ => .owner signed,
        .inr ⟨rfl, .inl rfl⟩⟩
    · exact .retimed found (.inr executed)

@[simp] theorem executeMultisig_outcome (proposalId : Nat) :
    HasOutcome env s (.executeMultisig id proposalId caller) := by
  simp only [HasOutcome, exec.eq_def, executeMultisig, loadProposal, setProposal, closeProposal,
    wp_rules]
  rintro ⟨_, signed⟩ v found rfl proposal stored approved inTime
  refine (performOperation_outcome env s id v.owner found signed stored _).mono ?_
  rintro _ t ⟨effect, only, proposals, side⟩
  refine ⟨fun _ => { effect with }, ⟨only.tenure, ?_, only.keys ▸ .kept,
    only.hibernation ▸ .kept, Controlled.opened_of_isSome only.stored⟩, congrFun side _⟩
  rw [proposals]
  exact .executed stored approved inTime

end Proposals

end EthosContracts.TtlVault
