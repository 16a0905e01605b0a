/-
**What multi-signature protects.**

Of the direct calls only `cancel_vault` looks for signers.
-/

import EthosContracts.TtlVault.ControlTerms

namespace EthosContracts.TtlVault

open Lib Function List

/-! ### Where proposals and approvals come from -/

/-- The call makes this proposal. -/
def Proposes (id : VaultId) (proposalId : Nat) (proposal : MultiSigProposal) (caller : Address)
    (event : VaultEvent) : Prop :=
  event.input.call = .record (.proposeMultisig id caller proposal.operation proposal.payload
      proposal.addressPayload) ∧
    proposalId = event.before.multiSig.proposalCount id + 1

/-- The event is an approval of the proposal by an address that could sign under `config`, which was
then in force. -/
def Approves (id : VaultId) (proposalId : Nat) (address : Address) (config : MultiSigConfig)
    (event : VaultEvent) : Prop :=
  event.input.call = .record (.approveMultisig id proposalId address) ∧
    address ∈ event.input.env.signers ∧ event.before.multiSig.config id = some config ∧
    MaySign event.before id config address

/-- The proposal and its approvals are those of the history. -/
structure Traced (history : History) (id : VaultId) (proposalId : Nat) (proposal : MultiSigProposal) :
    Prop where
  different : proposal.approvals.Nodup
  /-- The first approval is that of the proposer, who then owned the vault. -/
  proposed : ∃ event ∈ history, ∃ caller config, Proposes id proposalId proposal caller event ∧
    caller ∈ event.input.env.signers ∧ event.before.multiSig.config id = some config ∧
    MaySign event.before id config caller ∧ proposal.approvals.head? = some caller ∧
    proposal.expiresAt = event.input.env.now + 604800
  /-- The others were given by signers. -/
  given : ∀ address ∈ proposal.approvals.tail, ∃ event ∈ history, ∃ config,
    Approves id proposalId address config event
  /-- The last one reached the threshold. -/
  reached : proposal.status = .approved → ∃ event ∈ history, ∃ address config,
    Approves id proposalId address config event ∧
      proposal.approvals.getLast? = some address ∧ config.threshold ≤ proposal.approvals.length

/-- What an execution rests on. The signers may change in between. -/
structure Authorised (earlier : History) (event : VaultEvent) (id : VaultId)
    (proposalId : Nat) : Prop where
  proposal : ∃ proposal, event.before.multiSig.proposal id proposalId = some proposal ∧
    proposal.status = .approved ∧ event.input.env.now ≤ proposal.expiresAt ∧
    Traced earlier id proposalId proposal
  once : ∀ other ∈ earlier, ∀ caller, other.input.call ≠ .executeMultisig id proposalId caller

namespace Traced

variable {history : History} {event : VaultEvent} {id : VaultId} {proposalId : Nat}
  {proposal : MultiSigProposal}

section

variable (traced : Traced history id proposalId proposal)
include traced

theorem snoc : Traced (history ++ [event]) id proposalId proposal where
  different := traced.different
  proposed := by
    obtain ⟨first, member, rest⟩ := traced.proposed
    exact ⟨first, mem_append_left _ member, rest⟩
  given address listed := by
    obtain ⟨approval, member, rest⟩ := traced.given address listed
    exact ⟨approval, mem_append_left _ member, rest⟩
  reached approved := by
    obtain ⟨last, member, rest⟩ := traced.reached approved
    exact ⟨last, mem_append_left _ member, rest⟩

theorem close {status : ProposalStatus}
    (closed : status ≠ .approved) :
    Traced history id proposalId { proposal with status := status } where
  different := traced.different
  proposed := traced.proposed
  given := traced.given
  reached approved := absurd approved closed

theorem withoutSigner (signer : Address)
    (threshold : Nat) : Traced history id proposalId (proposal.withoutSigner signer threshold) := by
  unfold MultiSigProposal.withoutSigner
  split
  · refine traced.close ?_
    exact nofun
  · exact traced

theorem approvals_ne_nil : proposal.approvals ≠ [] := by
  obtain ⟨_, _, _, _, _, _, _, _, first, _⟩ := traced.proposed
  intro empty
  rw [empty] at first
  cases first

theorem approve {caller : Address} {config : MultiSigConfig}
    (approval : Approves id proposalId caller config event) (new : caller ∉ proposal.approvals) :
    Traced (history ++ [event]) id proposalId { proposal with
      approvals := proposal.approvals ++ [caller]
      status := if config.threshold ≤ (proposal.approvals ++ [caller]).length
        then .approved else .pending } := by
  have last : event ∈ history ++ [event] := mem_concat_self
  have nonempty := traced.approvals_ne_nil
  refine ⟨?_, ?_, fun address listed => ?_, fun approved => ?_⟩
  · exact List.Nodup.append traced.different (nodup_singleton caller) (disjoint_singleton.mpr new)
  · obtain ⟨first, member, proposer, inForce, proposes, signed, stored, maySign, head, expires⟩ :=
      traced.proposed
    refine ⟨first, mem_append_left _ member, proposer, inForce, proposes, signed, stored, maySign,
      ?_, expires⟩
    show (proposal.approvals ++ [caller]).head? = some proposer
    rw [List.head?_append_of_ne_nil _ nonempty]
    exact head
  · have listed : address ∈ (proposal.approvals ++ [caller]).tail := listed
    rw [tail_append_of_ne_nil nonempty, mem_append, mem_singleton] at listed
    rcases listed with old | rfl
    · obtain ⟨event, earlier, given⟩ := traced.given address old
      exact ⟨event, mem_append_left _ earlier, given⟩
    · exact ⟨_, last, config, approval⟩
  · refine ⟨_, last, caller, config, approval, List.getLast?_concat .., ?_⟩
    by_contra few
    have status : (if config.threshold ≤ (proposal.approvals ++ [caller]).length
        then ProposalStatus.approved else .pending) = .approved := approved
    rw [if_neg few] at status
    cases status

end

end Traced

section Put

variable {multiSig : MultiSigState} {id other : VaultId} {proposalId otherId : Nat}
  {proposal stored : MultiSigProposal}

theorem put_self :
    (multiSig.put id proposalId proposal).proposal id proposalId = some proposal := by
  show update multiSig.proposal id _ id proposalId = _
  rw [update_self, update_self]

theorem put_of_ne (different : other = id → otherId ≠ proposalId) :
    (multiSig.put id proposalId proposal).proposal other otherId =
      multiSig.proposal other otherId := by
  show update multiSig.proposal id _ other otherId = _
  by_cases same : other = id
  · subst same
    rw [update_self, update_of_ne (different rfl)]
  · rw [update_of_ne same]

theorem put_eq_some
    (found : (multiSig.put id proposalId proposal).proposal other otherId = some stored) :
    multiSig.proposal other otherId = some stored ∨
      (other = id ∧ otherId = proposalId ∧ stored = proposal) := by
  by_cases same : other = id ∧ otherId = proposalId
  · obtain ⟨rfl, rfl⟩ := same
    rw [put_self] at found
    exact .inr ⟨rfl, rfl, (Option.some.inj found).symm⟩
  · rw [put_of_ne (not_and.mp same)] at found
    exact .inl found

theorem reduced_proposal (target : VaultId) (signer : Address) (threshold : Nat) :
    ∃ change : MultiSigProposal → MultiSigProposal,
      (change = (fun proposal => proposal) ∨ change = (·.withoutSigner signer threshold)) ∧
      update multiSig.proposal target (fun proposalId =>
        if 1 ≤ proposalId ∧ proposalId ≤ multiSig.proposalCount target then
          (multiSig.proposal target proposalId).map (·.withoutSigner signer threshold)
        else multiSig.proposal target proposalId) other otherId =
          (multiSig.proposal other otherId).map change := by
  by_cases same : other = target
  · subst same
    rw [update_self]
    split
    · exact ⟨_, .inr rfl, rfl⟩
    · exact ⟨_, .inl rfl, (Option.map_id' ..).symm⟩
  · rw [update_of_ne same]
    exact ⟨_, .inl rfl, (Option.map_id' ..).symm⟩

end Put

/-- Every stored proposal can be traced to the calls it came from. -/
def Accounted (history : History) (s : State) : Prop :=
  ∀ id proposalId proposal, s.multiSig.proposal id proposalId = some proposal →
    proposalId ≤ s.multiSig.proposalCount id ∧ Traced history id proposalId proposal

section Proposals

variable {history : History} {s t : State} {input : Invocation}

variable {id : VaultId} {proposalId : Nat} {proposal : MultiSigProposal}

theorem Accounted.snoc {event : VaultEvent} (accounted : Accounted history s)
    (stored : s.multiSig.proposal id proposalId = some proposal) :
    proposalId ≤ s.multiSig.proposalCount id ∧
      Traced (history ++ [event]) id proposalId proposal := by
  obtain ⟨bound, traced⟩ := accounted id proposalId proposal stored
  exact ⟨bound, traced.snoc⟩

theorem accounted_put {new : MultiSigProposal}
    (accounted : Accounted history s) (stored : s.multiSig.proposal id proposalId = some proposal)
    (traced : Traced history id proposalId proposal →
      Traced (history ++ [⟨s, input, t⟩]) id proposalId new)
    (proposals : t.multiSig.proposal = (s.multiSig.put id proposalId new).proposal)
    (counts : t.multiSig.proposalCount = s.multiSig.proposalCount) :
    Accounted (history ++ [⟨s, input, t⟩]) t := by
  intro other otherId found present
  rw [proposals] at present
  rw [counts]
  rcases put_eq_some present with old | ⟨rfl, rfl, rfl⟩
  · exact accounted.snoc old
  · obtain ⟨bound, before⟩ := accounted other otherId proposal stored
    exact ⟨bound, traced before⟩

theorem accounted_close (status : ProposalStatus) (accounted : Accounted history s)
    (stored : s.multiSig.proposal id proposalId = some proposal) (closed : status ≠ .approved)
    (proposals : t.multiSig.proposal =
      (s.multiSig.put id proposalId { proposal with status := status }).proposal)
    (counts : t.multiSig.proposalCount = s.multiSig.proposalCount) :
    Accounted (history ++ [⟨s, input, t⟩]) t :=
  accounted_put accounted stored (fun traced => (traced.close closed).snoc) proposals counts

theorem accounted_step (step : MultiSigStep input.env s input.call t.multiSig)
    (accounted : Accounted history s) : Accounted (history ++ [⟨s, input, t⟩]) t := by
  have last : (⟨s, input, t⟩ : VaultEvent) ∈ history ++ [⟨s, input, t⟩] :=
    mem_concat_self
  have kept : t.multiSig.proposal = s.multiSig.proposal →
      t.multiSig.proposalCount = s.multiSig.proposalCount →
      Accounted (history ++ [⟨s, input, t⟩]) t := by
    intro proposals counts id proposalId proposal found
    rw [proposals] at found
    rw [counts]
    exact accounted.snoc found
  generalize after : t.multiSig = multiSig at step
  generalize called : input.call = call at step
  cases step with
  | kept | configured => exact kept (by rw [after]) (by rw [after])
  | reduced =>
    rename_i target config signer threshold
    intro id proposalId proposal found
    have count : t.multiSig.proposalCount id = s.multiSig.proposalCount id := by rw [after]
    rw [count]
    obtain ⟨change, either, reduced⟩ := reduced_proposal target signer threshold
    rw [after] at found
    obtain ⟨old, stored, rfl⟩ := Option.map_eq_some_iff.mp (reduced.symm.trans found)
    rcases either with rfl | rfl
    · exact accounted.snoc stored
    · obtain ⟨bound, traced⟩ := accounted id proposalId old stored
      exact ⟨bound, (traced.withoutSigner signer threshold).snoc⟩
  | proposed signed stored maySign =>
    rename_i target caller operation payload addressPayload config
    intro id proposalId proposal found
    rw [after] at found ⊢
    rcases put_eq_some found with old | ⟨rfl, rfl, rfl⟩
    · obtain ⟨bound, traced⟩ := accounted id proposalId proposal old
      refine ⟨?_, traced.snoc⟩
      show proposalId ≤ update s.multiSig.proposalCount target _ id
      by_cases same : id = target
      · subst same
        rw [update_self]
        exact Nat.le_succ_of_le bound
      · rw [update_of_ne same]
        exact bound
    · refine ⟨?_, nodup_singleton caller, ?_, nofun, nofun⟩
      · show _ ≤ update s.multiSig.proposalCount id _ id
        rw [update_self]
      · exact ⟨_, last, caller, config, ⟨called, rfl⟩, signed, stored, maySign, rfl, rfl⟩
  | approved signed stored maySign found pending new =>
    rename_i id proposalId caller config proposal
    refine accounted_put accounted found (fun traced => ?_) (by rw [after]) (by rw [after]; rfl)
    exact traced.approve ⟨called, signed, stored, maySign⟩ new
  | rejected found pending =>
    exact accounted_close .rejected accounted found (by decide) (by rw [after]; rfl)
      (by rw [after]; rfl)
  | vetoed found =>
    exact accounted_close .vetoed accounted found (by decide) (by rw [after]) (by rw [after]; rfl)
  | executed found =>
    exact accounted_close .executed accounted found (by decide) (by rw [after]; rfl)
      (by rw [after]; rfl)

theorem executed_stays {env : Env} {call : Call} {multiSig : MultiSigState}
    (step : MultiSigStep env s call multiSig)
    (bound : proposalId ≤ s.multiSig.proposalCount id)
    (stored : s.multiSig.proposal id proposalId = some proposal)
    (executed : proposal.status = .executed) :
    ∃ after, multiSig.proposal id proposalId = some after ∧ after.status = .executed := by
  -- another proposal is written, for this one is in none of the statuses that a step asks for
  have written : ∀ {target : VaultId} {targetId : Nat} {old new : MultiSigProposal},
      s.multiSig.proposal target targetId = some old → old.status ≠ .executed →
      ∃ after, (s.multiSig.put target targetId new).proposal id proposalId = some after ∧
        after.status = .executed := by
    intro target targetId old new found open'
    refine ⟨proposal, ?_, executed⟩
    rw [put_of_ne, stored]
    intro same sameId
    subst same sameId
    rw [stored] at found
    rw [← Option.some.inj found] at open'
    exact open' executed
  cases step with
  | kept | configured => exact ⟨proposal, stored, executed⟩
  | reduced =>
    rename_i target config signer threshold
    refine ⟨proposal, ?_, executed⟩
    obtain ⟨change, either, reduced⟩ := reduced_proposal target signer threshold
    refine reduced.trans ?_
    rw [stored, Option.map_some]
    rcases either with rfl | rfl
    · rfl
    · refine congrArg some (if_neg ?_)
      rintro ⟨pending, -⟩
      cases executed.symm.trans pending
  | proposed signed configured maySign =>
    rename_i target caller operation payload addressPayload config
    refine ⟨proposal, ?_, executed⟩
    refine (put_of_ne fun same => ?_).trans stored
    subst same
    exact Nat.ne_of_lt (Nat.lt_succ_of_le bound)
  | approved _ _ _ found pending | rejected found pending =>
    refine written found ?_
    rw [pending]
    exact nofun
  | vetoed found unfinished => exact written found unfinished
  | executed found approved =>
    refine written found ?_
    rw [approved]
    exact nofun

end Proposals

theorem executeMultisig_executes (env : Env) (s : State) (id : VaultId) (proposalId : Nat)
    (caller : Address) :
    (executeMultisig env id proposalId caller).wp s fun _ t =>
      (∃ proposal, s.multiSig.proposal id proposalId = some proposal ∧
        proposal.status = .approved ∧ env.now ≤ proposal.expiresAt) ∧
      ∃ proposal, t.multiSig.proposal id proposalId = some proposal ∧
        proposal.status = .executed := by
  simp only [executeMultisig, loadProposal, setProposal, closeProposal, wp_rules]
  rintro ⟨_, signed⟩ v found rfl proposal stored approved inTime
  refine (performOperation_outcome env s id v.owner found signed stored _).mono ?_
  rintro _ t ⟨-, -, proposals, -⟩
  refine ⟨⟨proposal, stored, approved, inTime⟩, { proposal with status := .executed }, ?_, rfl⟩
  rw [proposals]
  exact put_self

section Executions

variable {host : Host} {start s : State} {history : History}

theorem run_accounted (run : ContractRun host start history s)
    (none : ∀ id proposalId, start.multiSig.proposal id proposalId = none) :
    Accounted history s ∧ ∀ event ∈ history, ∀ id proposalId caller,
        event.input.call = .executeMultisig id proposalId caller →
        ∃ proposal, s.multiSig.proposal id proposalId = some proposal ∧
          proposal.status = .executed := by
  refine run.history_invariant (fun history s => Accounted history s ∧
      ∀ event ∈ history, ∀ id proposalId caller,
        event.input.call = .executeMultisig id proposalId caller →
        ∃ proposal, s.multiSig.proposal id proposalId = some proposal ∧ proposal.status = .executed)
    ⟨fun id proposalId proposal found => ?_, forall_mem_nil _⟩
    fun earlier u input t before ih stepped => ?_
  · rw [none] at found
    cases found
  · obtain ⟨accounted, executed⟩ := ih
    have controlled := step_controlled stepped
    refine ⟨accounted_step controlled.multiSig accounted, ?_⟩
    intro event member id proposalId caller called
    rcases mem_append.mp member with old | last
    · obtain ⟨proposal, found, status⟩ := executed event old id proposalId caller called
      exact executed_stays controlled.multiSig (accounted id proposalId proposal found).1 found status
    · rw [mem_singleton.mp last] at called
      have ran := stepped.2
      rw [called] at ran
      exact (executeMultisig_executes input.env u id proposalId caller () t ran).2

end Executions

/-! ### The protected operations -/

/-- The direct calls that withdraw from a vault. A payment to the owner alone is no withdrawal: it
may be the refund of a cancelled vault. -/
def Call.withdraws : Call → List VaultId
  | .withdraw id _ _ => [id]
  | .batchWithdraw vaultIds _ _ => vaultIds
  | .partialLiquidate id _ _ => [id]
  | .verifyWithdrawalEscrow id _ => [id]
  | .executeApprovedWithdrawal id => [id]
  | .executeScheduledWithdrawal id => [id]
  | .clawbackUnvested id _ => [id]
  | _ => []

/-- The call does to the vault what the operation is for. -/
inductive Acts (event : VaultEvent) (id : VaultId) : MultiSigOperation → Prop
  | withdraws (direct : id ∈ event.input.call.withdraws) : Acts event id .withdraw
  | executes (executed : executedOperation event.before id event.input.call = some .withdraw) :
      Acts event id .withdraw
  | renames {v w} (found : event.before.vaults id = some v)
      (present : event.after.vaults id = some w) (changed : w.beneficiary ≠ v.beneficiary) :
      Acts event id .updateBeneficiary
  | cancels {v w} (found : event.before.vaults id = some v)
      (present : event.after.vaults id = some w) (live : v.status ≠ .cancelled)
      (cancelled : w.status = .cancelled) : Acts event id .cancelVault
  | transfers {v w} (found : event.before.vaults id = some v)
      (present : event.after.vaults id = some w) (changed : w.owner ≠ v.owner) :
      Acts event id .transferOwnership
  | retimes {v w} (found : event.before.vaults id = some v)
      (present : event.after.vaults id = some w) (changed : w.checkInInterval ≠ v.checkInInterval) :
      Acts event id .updateCheckInInterval

/-- The event executes a proposal of the vault and the operation that has reached the threshold. -/
def ExecutesApproved (event : VaultEvent) (id : VaultId) (config : MultiSigConfig)
    (operation : MultiSigOperation) : Prop :=
  ∃ proposalId caller proposal, event.input.call = .executeMultisig id proposalId caller ∧
    event.before.multiSig.proposal id proposalId = some proposal ∧
    proposal.operation = operation ∧ config.threshold ≤ proposal.approvals.length

/-- A vault with signers on record is emptied, cancelled or given another beneficiary, owner or
interval only by the execution of a proposal with enough approvals. -/
def Protected (history : History) : Prop :=
  ∀ event ∈ history, ∀ id config operation, event.before.multiSig.config id = some config →
    Acts event id operation → ExecutesApproved event id config operation

/-- The condition on one step, for a vault with signers: the calls that do not look for them are not
made, and a proposal is executed only if the threshold has not been raised since its last approval.
-/
structure Guarded (earlier : History) (env : Env) (s : State) (call : Call) (id : VaultId)
    (config : MultiSigConfig) : Prop where
  withdraws : id ∉ call.withdraws
  applies : ∀ caller, call ≠ .applyBeneficiaryUpdate id caller
  accepts : ∀ newOwner, call ≠ .acceptOwnershipTransfer id newOwner
  transfers : ∀ caller newOwner, call ≠ .transferOwnership id caller newOwner
  retimes : ∀ interval, call ≠ .updateCheckInInterval id interval
  merges : ∀ targetId sources caller, call = .mergeVaults targetId sources caller → id ∉ sources
  refunds : id ∈ call.releases →
    acceptanceMissed env (s.beneficiaries.conditionalAcceptance id) = false
  executes : ∀ proposalId caller, call = .executeMultisig id proposalId caller →
    ∀ proposal ∈ s.multiSig.proposal id proposalId, ∀ address ∈ proposal.approvals.getLast?,
      ∀ approval ∈ earlier, ∀ inForce, Approves id proposalId address inForce approval →
        config.threshold ≤ inForce.threshold

theorem executedOperation_eq_some {s : State} {id : VaultId} {call : Call}
    {operation : MultiSigOperation} (executed : executedOperation s id call = some operation) :
    ∃ proposalId caller proposal, call = .executeMultisig id proposalId caller ∧
      s.multiSig.proposal id proposalId = some proposal ∧ proposal.operation = operation := by
  cases call with
  | executeMultisig vaultId proposalId caller =>
    rw [executedOperation] at executed
    split at executed
    · rename_i same
      subst same
      obtain ⟨proposal, stored, rfl⟩ := Option.map_eq_some_iff.mp executed
      exact ⟨proposalId, caller, proposal, rfl, stored, rfl⟩
    · cases executed
  | _ => cases executed

section Guarded

variable {earlier : History} {env : Env} {s : State} {call : Call} {id : VaultId}
  {config : MultiSigConfig} {v : Vault} {terms : Terms}

theorem TermsStep.executed_of_guarded (change : TermsStep env s call id v terms)
    (stored : s.multiSig.config id = some config) (guarded : Guarded earlier env s call id config) :
    (terms.beneficiary ≠ v.beneficiary → executedOperation s id call = some .updateBeneficiary) ∧
    (terms.status = .cancelled → v.status ≠ .cancelled →
      executedOperation s id call = some .cancelVault) ∧
    (terms.owner ≠ v.owner → executedOperation s id call = some .transferOwnership) ∧
    (terms.checkInInterval ≠ v.checkInInterval →
      executedOperation s id call = some .updateCheckInInterval) := by
  -- a part that the step does not change
  have same : ∀ {α : Type} {a : α} {fact : Prop}, a ≠ a → fact :=
    fun different => absurd rfl different
  cases change with
  | kept | listed locked | rotated locked =>
    exact ⟨same, fun after before => absurd after before, same, same⟩
  | released locked => exact ⟨same, nofun, same, same⟩
  | refunded locked releases missed => cases missed.symm.trans (guarded.refunds releases)
  | applied _ is => exact absurd is (guarded.applies _)
  | renamed executed =>
    exact ⟨fun _ => executed, fun after before => absurd after before, same, same⟩
  | accepted _ is => exact absurd is (guarded.accepts _)
  | transferred taken mode =>
    rcases mode with ⟨caller, is⟩ | executed
    · exact absurd is (guarded.transfers _ _)
    · exact ⟨same, fun after before => absurd after before, fun _ => executed, same⟩
  | cancelled _ unconfigured => cases stored.symm.trans unconfigured
  | executedCancel executed => exact ⟨same, fun _ _ => executed, same, same⟩
  | merged is member => exact absurd member (guarded.merges _ _ _ is)
  | retimed mode =>
    rcases mode with is | executed
    · exact absurd is (guarded.retimes _)
    · exact ⟨same, fun after before => absurd after before, same, fun _ => executed⟩

end Guarded

/-- **Multi-signature protection cannot be bypassed** in a run whose steps meet the condition. -/
theorem protected_of_guarded {host : Host} {xlmToken admin : Address}
    {ledger : Ledger Address Address} {history : History} {s : State}
    (run : ContractRun host (initialState xlmToken admin ledger) history s)
    (guarded : ∀ earlier event later, history = earlier ++ event :: later → ∀ id config,
      event.before.multiSig.config id = some config →
        Guarded earlier event.input.env event.before event.input.call id config) :
    Protected history := by
  intro event member id config operation stored acts
  obtain ⟨earlier, later, whole⟩ := append_of_mem member
  have guard := guarded earlier event later whole id config stored
  obtain ⟨start, first, rest⟩ := run.split earlier (event :: later) whole
  obtain ⟨rfl, stepped, -⟩ := rest.uncons
  have counted := (run_regular first (initialState_regular xlmToken admin ledger)).counted
  have controlled := step_controlled stepped
  -- the last approval of an executed proposal has reached the threshold of that time
  have approved : executedOperation event.before id event.input.call = some operation →
      ExecutesApproved event id config operation := by
    intro executed
    obtain ⟨proposalId, caller, proposal, called, found, same⟩ := executedOperation_eq_some executed
    have ran := stepped.2
    rw [called] at ran
    obtain ⟨⟨current, found', status, -⟩, -⟩ :=
      executeMultisig_executes event.input.env event.before id proposalId caller () event.after ran
    cases found.symm.trans found'
    have traced := ((run_accounted first fun _ _ => rfl).1 id proposalId proposal found).2
    obtain ⟨approval, before, address, inForce, approves, last, reached⟩ := traced.reached status
    exact ⟨proposalId, caller, proposal, called, found, same, (guard.executes proposalId caller called
      proposal found address last approval before inForce approves).trans reached⟩
  have changes : ∀ {v w : Vault}, event.before.vaults id = some v → event.after.vaults id = some w →
      TermsStep event.input.env event.before event.input.call id v w.terms := by
    intro v w found present
    obtain ⟨u, written, change⟩ := controlled.terms counted found
    cases present.symm.trans written
    exact change
  cases acts with
  | withdraws direct => exact absurd direct guard.withdraws
  | executes executed => exact approved executed
  | renames found present changed =>
    exact approved (((changes found present).executed_of_guarded stored guard).1 changed)
  | cancels found present live cancelled =>
    exact approved (((changes found present).executed_of_guarded stored guard).2.1 cancelled live)
  | transfers found present changed =>
    exact approved (((changes found present).executed_of_guarded stored guard).2.2.1 changed)
  | retimes found present changed =>
    exact approved (((changes found present).executed_of_guarded stored guard).2.2.2 changed)

def twoOfTwo : Scenario :=
  [(1, ⟨3⟩, .createVault ⟨3⟩ ⟨4⟩ 1000000 none),
    (2, ⟨3⟩, .deposit 1 ⟨3⟩ 100),
    (3, ⟨3⟩, .record (.configureMultisig 1 ⟨3⟩ [⟨5⟩] 2))]

def approvedTransfer : Scenario :=
  twoOfTwo ++
    [(4, ⟨3⟩, .record (.proposeMultisig 1 ⟨3⟩ .transferOwnership [] (some ⟨6⟩))),
      (5, ⟨5⟩, .record (.approveMultisig 1 1 ⟨5⟩))]

def executedTransfer : VaultEvent :=
  nextEvent fundedState (plainInputs approvedTransfer) ⟨plainEnv 6 [⟨3⟩], .executeMultisig 1 1 ⟨3⟩⟩

theorem executedTransfer_run : PlainRun
      ((played approvedTransfer).1 ++ [executedTransfer])
      executedTransfer.after := by
  exact .snoc (plainInputs_run approvedTransfer) ⟨rfl, rfl⟩

/-- The execution has the two approvals that it needs. -/
theorem protected_executedTransfer :
    (executedTransfer.after.vaults 1).map (·.owner) = some ⟨6⟩ ∧
      Protected ((played approvedTransfer).1 ++ [executedTransfer]) := by
  refine ⟨rfl, protected_of_guarded executedTransfer_run fun earlier event later whole => ?_⟩
  intro id config stored
  have inside : ∀ {other}, other ∈ earlier ++ event :: later →
      other ∈ (played approvedTransfer).1 ++ [executedTransfer] := fun listed => whole ▸ listed
  rcases inside mem_append_cons_self with _ | ⟨_, _ | ⟨_, _ | ⟨_, _ | ⟨_, _ | ⟨_, _ | ⟨_, none⟩⟩⟩⟩⟩⟩
  case' tail.tail.tail.tail.tail.tail => cases none
  case' tail.tail.tail.tail.tail.head =>
    refine ⟨nofun, nofun, nofun, nofun, nofun, nofun, nofun, fun proposalId caller called => ?_⟩
    rintro proposal - address - approval given inForce ⟨approves, -, configured, -⟩
    cases called
    cases stored
    -- the only approval is given under the same threshold
    rcases inside (mem_append_left _ given) with
      _ | ⟨_, _ | ⟨_, _ | ⟨_, _ | ⟨_, _ | ⟨_, _ | ⟨_, none⟩⟩⟩⟩⟩⟩
    case' tail.tail.tail.tail.tail.tail => cases none
    case' tail.tail.tail.tail.head =>
      cases configured
      exact le_rfl
    all_goals cases approves
  all_goals exact ⟨nofun, nofun, nofun, nofun, nofun, nofun, nofun, nofun⟩

def directWithdrawal : VaultEvent :=
  nextEvent fundedState (plainInputs twoOfTwo) ⟨plainEnv 4 [⟨3⟩], .withdraw 1 ⟨3⟩ 60⟩

/-- The withdrawal succeeds without a proposal. -/
theorem directWithdrawal_not_protected :
    PlainRun
        ((played twoOfTwo).1 ++ [directWithdrawal])
        directWithdrawal.after ∧
      (directWithdrawal.before.multiSig.config 1).map
          (fun config => (config.signers, config.threshold)) =
        some ([⟨5⟩], 2) ∧
      (directWithdrawal.before.vaults 1).map (·.balance) = some 100 ∧
      (directWithdrawal.after.vaults 1).map (·.balance) = some 40 ∧
      ¬ Protected ((played twoOfTwo).1 ++ [directWithdrawal]) := by
  refine ⟨.snoc (plainInputs_run twoOfTwo) ⟨rfl, Tx.eq_ok_after (by decide +kernel)⟩, rfl, rfl,
    by decide +kernel, fun safe => ?_⟩
  have acts : Acts directWithdrawal 1 .withdraw := .withdraws (mem_singleton.mpr rfl)
  obtain ⟨proposalId, caller, proposal, called, -⟩ :=
    safe _ mem_concat_self 1 _ .withdraw rfl acts
  cases called

/-! ### Executions -/

/-- **Every execution is authorised by those who could sign when they approved, and happens once.**
-/
theorem run_authorised {host : Host} {xlmToken admin : Address} {ledger : Ledger Address Address}
    {history : History} {s : State}
    (run : ContractRun host (initialState xlmToken admin ledger) history s) :
    ∀ earlier event later, history = earlier ++ event :: later → ∀ id proposalId caller,
      event.input.call = .executeMultisig id proposalId caller →
        Authorised earlier event id proposalId := by
  intro earlier event later whole id proposalId caller called
  obtain ⟨middle, before, rest⟩ := run.split earlier (event :: later) whole
  obtain ⟨rfl, stepped, -⟩ := rest.uncons
  obtain ⟨accounted, executed⟩ := run_accounted before fun _ _ => rfl
  have ran := stepped.2
  rw [called] at ran
  obtain ⟨⟨proposal, found, approved, inTime⟩, -⟩ :=
    executeMultisig_executes event.input.env event.before id proposalId caller () event.after ran
  refine ⟨⟨proposal, found, approved, inTime, (accounted id proposalId proposal found).2⟩, ?_⟩
  intro other member caller' called'
  obtain ⟨proposal', found', status⟩ := executed other member id proposalId caller' called'
  rw [found] at found'
  rw [← Option.some.inj found', approved] at status
  cases status

/-- The transfer that both signers approved is authorised. -/
theorem run_authorised_executedTransfer :
    Authorised (played approvedTransfer).1 executedTransfer 1 1 :=
  run_authorised executedTransfer_run _ executedTransfer [] rfl 1 1 ⟨3⟩ rfl

/-- At least as many of the present owner and co-signers as the present threshold asks for have
approved the proposal. -/
def CurrentlyApproved (s : State) (id : VaultId) (proposalId : Nat) : Prop :=
  ∃ config proposal, ∃ approvers : List Address, s.multiSig.config id = some config ∧
    s.multiSig.proposal id proposalId = some proposal ∧ approvers.Nodup ∧
    config.threshold ≤ approvers.length ∧
    ∀ address ∈ approvers, address ∈ proposal.approvals ∧ MaySign s id config address

def removedSigner : Scenario :=
  [(1, ⟨3⟩, .createVault ⟨3⟩ ⟨4⟩ 1000000 none),
    (2, ⟨3⟩, .record (.configureMultisig 1 ⟨3⟩ [⟨5⟩, ⟨6⟩] 2)),
    (3, ⟨3⟩, .record (.proposeMultisig 1 ⟨3⟩ .transferOwnership [] (some ⟨7⟩))),
    (4, ⟨5⟩, .record (.approveMultisig 1 1 ⟨5⟩)),
    (5, ⟨3⟩, .record (.removeMultisigSigner 1 ⟨3⟩ ⟨5⟩))]

def executedLater : VaultEvent :=
  nextEvent fundedState (plainInputs removedSigner) ⟨plainEnv 6 [⟨3⟩], .executeMultisig 1 1 ⟨3⟩⟩

/-- The execution succeeds with the approval of one present signer, where the threshold is two. -/
theorem executedLater_not_current :
    PlainRun ((played removedSigner).1 ++ [executedLater]) executedLater.after ∧
      (executedLater.before.multiSig.config 1).map (fun config => (config.signers, config.threshold)) =
        some ([⟨6⟩], 2) ∧
      (executedLater.before.multiSig.proposal 1 1).map (·.approvals) = some [⟨3⟩, ⟨5⟩] ∧
      (executedLater.after.vaults 1).map (·.owner) = some ⟨7⟩ ∧
      ¬ CurrentlyApproved executedLater.before 1 1 := by
  refine ⟨.snoc (plainInputs_run removedSigner) ⟨rfl, rfl⟩, rfl, rfl, rfl, ?_⟩
  intro ⟨config, proposal, approvers, stored, found, different, enough, each⟩
  cases stored
  cases found
  -- only the owner has approved and may still sign
  have only : ∀ address ∈ approvers, address = ⟨3⟩ := by
    intro address member
    obtain ⟨approved, v, present, may⟩ := each address member
    cases present
    rcases approved with _ | ⟨_, _ | ⟨_, none⟩⟩
    · rfl
    · exact absurd may (by decide)
    · cases none
  rw [eq_replicate_iff.mpr ⟨rfl, only⟩] at different
  exact absurd (Nat.le_trans enough (nodup_replicate.mp different)) (by decide)

end EthosContracts.TtlVault
