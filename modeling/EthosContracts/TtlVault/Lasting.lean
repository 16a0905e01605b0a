/-
**What lasts along every run of the contract**, whatever calls are made: the vaults and their
numbers, the proposals of the co-signers, the compliance policies and the ground of every payout.
-/

import EthosContracts.TtlVault.Deadline
import EthosContracts.TtlVault.PolicyHistory
import EthosContracts.TtlVault.Signers

namespace EthosContracts.TtlVault

open Lib Function List

section Steps

variable {env : Env} {s t : State} {call : Call}

/-! ### Vaults -/

theorem foldl_absorb_count (sources : List VaultId) (tenure : Tenure) :
    (sources.foldl Tenure.absorb tenure).vaultCount = tenure.vaultCount := by
  induction sources generalizing tenure with
  | nil => rfl
  | cons source rest ih =>
    rw [foldl_cons, ih, Tenure.absorb]
    cases tenure.terms source with
    | none => rfl
    | some terms => rfl

theorem TenureStep.count {tenure : Tenure} (step : TenureStep env s call tenure) :
    tenure.vaultCount = s.vaultCount ∨ tenure.vaultCount = s.vaultCount + 1 ∧
      (tenure.terms (s.vaultCount + 1)).isSome := by
  cases step with
  | created | copied => exact .inr ⟨rfl, Option.isSome_of_eq_some Tenure.set_terms_self⟩
  | merged => exact .inl (foldl_absorb_count _ _)
  | _ => exact .inl rfl

/-- The vaults are numbered from one to the count, without a gap. -/
def VaultsNumbered (s : State) : Prop :=
  ∀ id : Nat, (s.vaults id).isSome ↔ 1 ≤ id ∧ id ≤ s.vaultCount

theorem VaultsNumbered.step (numbered : VaultsNumbered s) (effect : Effect env call s t)
    (controlled : Controlled env call s t) : VaultsNumbered t := by
  intro id
  have kept (first : 1 ≤ id) (last : id ≤ s.vaultCount) : (t.vaults id).isSome := by
    obtain ⟨v, found⟩ := Option.isSome_iff_exists.mp ((numbered id).mpr ⟨first, last⟩)
    obtain ⟨w, present, -⟩ := effect.vaults id v found
    exact Option.isSome_of_eq_some present
  constructor
  · intro stored
    obtain ⟨w, present⟩ := Option.isSome_iff_exists.mp stored
    cases before : s.vaults id with
    | none =>
      refine ⟨?_, (effect.opened id w before present).1⟩
      rw [(controlled.opens before present).next]
      exact Nat.le_add_left 1 _
    | some v =>
      obtain ⟨first, last⟩ := (numbered id).mp (Option.isSome_of_eq_some before)
      exact ⟨first, last.trans effect.counted⟩
  · rintro ⟨first, last⟩
    rcases controlled.tenure.count with count | ⟨count, new⟩
    · exact kept first (last.trans_eq count)
    · rcases Nat.le_succ_iff.mp (last.trans_eq count) with old | rfl
      · exact kept first old
      · rw [← Option.isSome_map]
        exact new

/-! ### Proposals -/

/-- **How a proposal goes on**: its terms stay, approvals are added while it is pending, and after
that it may be vetoed unless executed, or executed if approved. -/
structure MultiSigProposal.GoesOn (p q : MultiSigProposal) : Prop where
  terms : { q with approvals := p.approvals, status := p.status } = p
  approvals : p.approvals <+: q.approvals
  decided : p.status ≠ .pending → q.approvals = p.approvals ∧ (q.status = p.status ∨
    q.status = .vetoed ∧ p.status ≠ .executed ∨ q.status = .executed ∧ p.status = .approved)

theorem MultiSigProposal.GoesOn.refl (p : MultiSigProposal) : p.GoesOn p :=
  ⟨rfl, prefix_rfl, fun _ => ⟨rfl, .inl rfl⟩⟩

theorem MultiSigProposal.GoesOn.trans {p q r : MultiSigProposal} (first : p.GoesOn q)
    (second : q.GoesOn r) : p.GoesOn r := by
  refine ⟨?_, first.approvals.trans second.approvals, fun decided => ?_⟩
  · rw [← first.terms, ← second.terms]
  · obtain ⟨same, moved⟩ := first.decided decided
    have := second.decided
    grind

theorem MultiSigStep.goesOn {multiSig : MultiSigState} {id : VaultId} {proposalId : Nat}
    {p : MultiSigProposal} (step : MultiSigStep env s call multiSig)
    (bound : proposalId ≤ s.multiSig.proposalCount id)
    (stored : s.multiSig.proposal id proposalId = some p) :
    ∃ q, multiSig.proposal id proposalId = some q ∧ p.GoesOn q := by
  have written {target : VaultId} {targetId : Nat} {old new : MultiSigProposal}
      (found : s.multiSig.proposal target targetId = some old) (goes : old.GoesOn new) :
      ∃ q, (s.multiSig.put target targetId new).proposal id proposalId = some q ∧ p.GoesOn q := by
    by_cases same : id = target ∧ proposalId = targetId
    · obtain ⟨rfl, rfl⟩ := same
      cases stored.symm.trans found
      exact ⟨new, put_self, goes⟩
    · exact ⟨p, (put_of_ne fun here there => same ⟨here, there⟩).trans stored, .refl p⟩
  cases step with
  | kept | configured => exact ⟨p, stored, .refl p⟩
  | reduced =>
    rename_i target config signer threshold
    obtain ⟨change, either, reduced⟩ := reduced_proposal target signer threshold
    refine ⟨change p, reduced.trans (by rw [stored, Option.map_some]), ?_⟩
    rcases either with rfl | rfl
    · exact .refl p
    · show p.GoesOn (p.withoutSigner signer threshold)
      unfold MultiSigProposal.withoutSigner
      split_ifs with rejected
      · exact ⟨rfl, prefix_rfl, absurd rejected.1⟩
      · exact .refl p
  | proposed =>
    refine ⟨p, (put_of_ne fun same => ?_).trans stored, .refl p⟩
    subst same
    exact Nat.ne_of_lt (Nat.lt_succ_of_le bound)
  | approved _ _ _ found pending => exact written found ⟨rfl, prefix_append _ _, absurd pending⟩
  | rejected found pending => exact written found ⟨rfl, prefix_rfl, absurd pending⟩
  | vetoed found unfinished =>
    exact written found ⟨rfl, prefix_rfl, fun _ => ⟨rfl, .inr (.inl ⟨rfl, unfinished⟩)⟩⟩
  | executed found approved =>
    exact written found ⟨rfl, prefix_rfl, fun _ => ⟨rfl, .inr (.inr ⟨rfl, approved⟩)⟩⟩

end Steps

/-! ### Runs -/

section Runs

variable {host : Host} {xlmToken admin : Address} {ledger : Ledger Address Address} {s : State}
  {history : History}

/-- **The vaults are numbered without gaps**, and no number is used again. -/
theorem vaults_numbered (run : ContractRun host (initialState xlmToken admin ledger) history s) :
    VaultsNumbered s ∧ ∀ event ∈ history, event.before.vaultCount ≤ s.vaultCount := by
  have regular := initialState_regular xlmToken admin ledger
  constructor
  · refine regular_invariant run regular VaultsNumbered (fun _ _ => True) ?_ ?_ fun _ _ => trivial
    · intro id
      refine iff_of_false Bool.false_ne_true ?_
      rintro ⟨first, last⟩
      exact Nat.not_succ_le_zero 0 (first.trans last)
    · intro u input t regular numbered _ stepped
      exact numbered.step (step_effect regular stepped) (step_controlled stepped)
  · refine Run.lasting (R := fun s t => s.vaultCount ≤ t.vaultCount) (fun _ _ _ => le_trans) run ?_
    exact fun event member => (run_effect run regular event member).counted

theorem numbered_threeVaults : (replay fundedState threeVaults).2.vaultCount = 3 ∧
    VaultsNumbered (replay fundedState threeVaults).2 :=
  ⟨rfl, (vaults_numbered threeVaults_run).1⟩

/-- **A proposal is never lost**, and goes on only as allowed. -/
theorem proposals_goOn (run : ContractRun host (initialState xlmToken admin ledger) history s) :
    ∀ event ∈ history, ∀ id proposalId p, event.before.multiSig.proposal id proposalId = some p →
      ∃ q, s.multiSig.proposal id proposalId = some q ∧ p.GoesOn q := by
  refine Run.lasting (R := fun s t => ∀ id proposalId p,
    s.multiSig.proposal id proposalId = some p →
      ∃ q, t.multiSig.proposal id proposalId = some q ∧ p.GoesOn q) ?_ run ?_
  · intro s t u first second id proposalId p stored
    obtain ⟨q, found, goes⟩ := first id proposalId p stored
    obtain ⟨r, now, further⟩ := second id proposalId q found
    exact ⟨r, now, goes.trans further⟩
  · intro event member id proposalId p stored
    obtain ⟨earlier, later, -, before, stepped, -⟩ := run.at_event member
    have accounted := (run_accounted before fun _ _ => rfl).1 id proposalId p stored
    exact (step_controlled stepped).multiSig.goesOn accounted.1 stored

theorem goesOn_executedTransfer : ∃ p, executedTransfer.before.multiSig.proposal 1 1 = some p ∧
    ∃ q, executedTransfer.after.multiSig.proposal 1 1 = some q ∧ p.GoesOn q := by
  refine ⟨_, rfl, proposals_goOn executedTransfer_run executedTransfer ?_ 1 1 _ rfl⟩
  exact mem_append_right _ mem_cons_self

/-- **Published policies stay**: the history only grows, is numbered from 1 without gaps, and the
live rules are those of the applied version. -/
theorem policies_lasting (run : ContractRun host (initialState xlmToken admin ledger) history s) :
    s.policyBook.Consistent ∧
    ∀ event ∈ history, event.before.compliance.policies <+: s.compliance.policies := by
  refine ⟨run_policyBook_consistent run, ?_⟩
  refine Run.lasting (R := fun s t => s.compliance.policies <+: t.compliance.policies)
    (fun _ _ _ => IsPrefix.trans) run ?_
  intro event member
  have stepped := exec_policyStep _ _ _ _ _ (run.stepped event member).2
  obtain ⟨recorded, grown, -⟩ := stepped.policies
  exact ⟨recorded, grown.symm⟩

theorem policies_scheduledAllowlist : (played scheduledAllowlist).2.compliance.policies.length = 2 ∧
    (played scheduledAllowlist).2.policyBook.Consistent :=
  ⟨rfl, (policies_lasting (plainInputs_run scheduledAllowlist)).1⟩

end Runs

end EthosContracts.TtlVault
