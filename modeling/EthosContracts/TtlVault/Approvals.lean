/-
**Withdrawals under approvals** (`passkeys_and_recovery.rs`).

The owner asks, the listed approvers approve, and then anyone may execute. The execution counts the
approvals; the expiry is looked at by the approvals only, and the status by none of the three.
-/

import EthosContracts.TtlVault.Transition

namespace EthosContracts.TtlVault

open Lib Function

/-- The vault whose request the call opens or closes. -/
def Call.settles : Call → Option VaultId
  | .record (.requestWithdrawalApproval id ..) | .executeApprovedWithdrawal id =>
    some id
  | _ => none

/-- **The history leads to an open request**: it is asked for, approved by some of the approvers,
and since then nothing else is asked for or executed. -/
inductive Requested (id : VaultId) (approvers : List Address) :
    WithdrawalApprovalRequest → History → Prop
  | asked {history : History} {s t env caller amount required} : Requested id approvers
        ⟨amount, env.now, [], required, env.now + 604800⟩ (history ++ [⟨s, ⟨env,
          .record (.requestWithdrawalApproval id caller amount approvers required)⟩, t⟩])
  | approved {history s t env approver request} (requested : Requested id approvers request history)
      (listed : approver ∈ approvers) (new : approver ∉ request.approvals) :
      Requested id approvers { request with approvals := request.approvals ++ [approver] }
        (history ++ [⟨s, ⟨env, .record (.approveWithdrawal id approver)⟩, t⟩])
  | later {history event request} (requested : Requested id approvers request history)
      (other : event.input.call.settles ≠ some id) :
      Requested id approvers request (history ++ [event])

/-- **An execution as it should be**: of a request that the history led to, approved by enough
different approvers, in time, of a locked vault, and for no more than the balance. -/
def Endorsed (id : VaultId) (earlier : History) (event : VaultEvent) : Prop :=
  ∃ request approvers v, event.before.withdrawals.approvalRequest id = some request ∧
    Requested id approvers request earlier ∧ request.approvals.Nodup ∧
    request.approvals ⊆ approvers ∧ request.requiredApprovals ≤ request.approvals.length ∧
    event.input.env.now ≤ request.expiresAt ∧ event.before.vaults id = some v ∧
    v.status = .locked ∧ request.amount ≤ v.balance ∧
    event.after.payouts = event.before.payouts ++ [⟨id, v.tokenAddress, v.owner, request.amount⟩]

section Steps

variable {env : Env} {s t : State} {id : VaultId} {request : WithdrawalApprovalRequest}
  {approvers : List Address} {history : History} {call : Call}

theorem Requested.approvals (requested : Requested id approvers request history) :
    request.approvals.Nodup ∧ request.approvals ⊆ approvers := by
  induction requested with
  | asked => exact ⟨List.nodup_nil, List.nil_subset _⟩
  | approved _ listed new ih =>
    refine ⟨?_, List.append_subset.mpr ⟨ih.2, List.cons_subset.mpr ⟨listed, List.nil_subset _⟩⟩⟩
    rw [← List.concat_eq_append]
    exact ih.1.concat new
  | later _ _ ih => exact ih

/-- The open request of a vault is one that the history led to. -/
def Explained (id : VaultId) (history : History) (s : State) : Prop :=
  ∀ request ∈ s.withdrawals.approvalRequest id, ∃ approvers ∈ s.withdrawals.approvers id,
    Requested id approvers request history

theorem Explained.later (explained : Explained id history s)
    (requests : t.withdrawals.approvalRequest id = s.withdrawals.approvalRequest id)
    (named : t.withdrawals.approvers id = s.withdrawals.approvers id) (other : call.settles ≠ some id) :
    Explained id (history ++ [⟨s, ⟨env, call⟩, t⟩]) t := by
  unfold Explained
  rw [requests, named]
  intro request stored
  obtain ⟨approvers, given, requested⟩ := explained request stored
  exact ⟨approvers, given, requested.later other⟩

theorem executeApprovedWithdrawal_spec :
    (executeApprovedWithdrawal env id).wp s fun _ t => ∃ request v,
      s.withdrawals.approvalRequest id = some request ∧ s.vaults id = some v ∧
      request.requiredApprovals ≤ request.approvals.length ∧ request.amount ≤ v.balance ∧
      t.payouts = s.payouts ++ [⟨id, v.tokenAddress, v.owner, request.amount⟩] ∧
      t.withdrawals = { s.withdrawals with
        approvalRequest := update s.withdrawals.approvalRequest id none } := by
  simp only [executeApprovedWithdrawal, setApprovalRequest, wp_rules]
  intro request stored enough v found covered _ _ _
  exact ⟨request, v, stored, found, enough, covered, rfl, trivial⟩

theorem exec_explained (env : Env) (call : Call) (explained : Explained id history s) :
    (exec env call).wp s fun _ t => Explained id (history ++ [⟨s, ⟨env, call⟩, t⟩]) t := by
  by_cases about : call.approves = true
  · cases call with
    | record call =>
      cases call with
      | requestWithdrawalApproval vaultId =>
        simp only [exec.eq_def, execRecord.eq_def, requestWithdrawalApproval, setApprovalRequest,
          wp_rules]
        intros
        by_cases same : id = vaultId
        · subst same
          simp only [Explained, update_self, Option.mem_some_iff, forall_eq', exists_eq_left']
          exact .asked
        · refine explained.later (update_of_ne same ..) (update_of_ne same ..) ?_
          exact fun settled => same (Option.some.inj settled).symm
      | approveWithdrawal vaultId caller =>
        simp only [exec.eq_def, execRecord.eq_def, approveWithdrawal, setApprovalRequest, wp_rules]
        intro _ approvers given listed request stored _ new
        by_cases same : id = vaultId
        · subst same
          obtain ⟨others, named, requested⟩ := explained request stored
          cases given.symm.trans named
          simp only [Explained, update_self, Option.mem_some_iff, forall_eq']
          exact ⟨approvers, given, requested.approved listed new⟩
        · exact explained.later (update_of_ne same ..) rfl (by rintro ⟨⟩)
      | _ => cases about
    | executeApprovedWithdrawal vaultId =>
      refine executeApprovedWithdrawal_spec.mono ?_
      rintro _ t ⟨_, _, _, _, _, _, _, written⟩
      by_cases same : id = vaultId
      · subst same
        simp [Explained, written]
      · refine explained.later ?_ (by rw [written]) fun settled => same (Option.some.inj settled).symm
        rw [written]
        exact update_of_ne same ..
    | _ => cases about
  · refine (exec_side SideBooks.approvals (fun _ _ => rfl) env call
      (Bool.eq_false_of_not_eq_true about) s).mono ?_
    intro _ t same
    obtain ⟨requests, named⟩ := Prod.mk.inj same
    refine explained.later (congrFun requests id) (congrFun named id) fun settled => ?_
    unfold Call.settles at settled
    split at settled
    · exact about rfl
    · exact about rfl
    · cases settled

end Steps

section Runs

variable {host : Host} {start s : State} {history : History} {id : VaultId}

theorem run_requested (run : ContractRun host start history s)
    (fresh : start.withdrawals.approvalRequest id = none) : Explained id history s := by
  refine run.history_invariant (Explained id) ?_ ?_
  · simp [Explained, fresh]
  · intro history s input t _ explained stepped
    exact exec_explained input.env input.call explained () t stepped.2

/-- **When approved withdrawals are executed under their approvals.** In every run, exactly if each
execution is in time and finds the vault locked. -/
theorem endorsed_iff (run : ContractRun host start history s)
    (fresh : start.withdrawals.approvalRequest id = none) :
    (∀ earlier event later, history = earlier ++ event :: later →
      event.input.call = .executeApprovedWithdrawal id → Endorsed id earlier event) ↔
    ∀ event ∈ history, event.input.call = .executeApprovedWithdrawal id →
      ∀ request ∈ event.before.withdrawals.approvalRequest id, ∀ v ∈ event.before.vaults id,
        event.input.env.now ≤ request.expiresAt ∧ v.status = .locked := by
  refine run.forall_split_iff fun earlier event before stepped called => ?_
  have ran := stepped.2
  rw [called] at ran
  obtain ⟨request, v, stored, found, enough, covered, paid, -⟩ :=
    executeApprovedWithdrawal_spec () event.after ran
  obtain ⟨approvers, -, requested⟩ := run_requested before fresh request stored
  obtain ⟨ne, listed⟩ := requested.approvals
  simp only [Endorsed, stored, found, Option.mem_some_iff, forall_eq', Option.some.injEq,
    exists_and_left, ↓existsAndEq, true_and]
  constructor
  · rintro ⟨-, -, -, -, -, inTime, locked, -⟩
    exact ⟨inTime, locked⟩
  · intro ⟨inTime, locked⟩
    exact ⟨approvers, requested, ne, listed, enough, inTime, locked, covered, paid⟩

end Runs

def approvedRequest (executed : Nat) : Scenario :=
  [(1000, ⟨3⟩, .createVault ⟨3⟩ ⟨4⟩ 86400 none), (1001, ⟨3⟩, .deposit 1 ⟨3⟩ 100),
   (1002, ⟨3⟩, .record (.requestWithdrawalApproval 1 ⟨3⟩ 50 [⟨5⟩, ⟨6⟩] 1)),
   (1003, ⟨5⟩, .record (.approveWithdrawal 1 ⟨5⟩)),
   (executed, ⟨4⟩, .executeApprovedWithdrawal 1)]

theorem endorsed_approvedRequest :
    (let run := played (approvedRequest 1004)
     run.2.payouts = [⟨1, ⟨1⟩, ⟨3⟩, 50⟩] ∧ ∀ earlier event later,
      run.1 = earlier ++ event :: later → event.input.call = .executeApprovedWithdrawal 1 →
      Endorsed 1 earlier event) := by
  have fits : ∀ event ∈ (played (approvedRequest 1004)).1,
      ∀ request ∈ event.before.withdrawals.approvalRequest 1, ∀ v ∈ event.before.vaults 1,
        event.input.env.now ≤ request.expiresAt ∧ v.status = .locked := by
    decide +kernel
  refine ⟨by decide +kernel, (endorsed_iff (plainInputs_run _) rfl).mpr ?_⟩
  exact fun event member _ => fits event member

/-- Long after the request has expired, it is executed. -/
theorem expired_execution :
    (let run := played (approvedRequest 1000000)
     PlainRun run.1 run.2 ∧ run.2.payouts = [⟨1, ⟨1⟩, ⟨3⟩, 50⟩] ∧
      ¬ ∀ earlier event later, run.1 = earlier ++ event :: later →
        event.input.call = .executeApprovedWithdrawal 1 → Endorsed 1 earlier event) := by
  refine ⟨plainInputs_run _, by decide +kernel, fun all => ?_⟩
  obtain ⟨request, _, _, stored, -, -, -, -, inTime, -⟩ :=
    all ((played (approvedRequest 1000000)).1.take 4) _ [] rfl rfl
  cases stored
  revert inTime
  decide +kernel

end EthosContracts.TtlVault
