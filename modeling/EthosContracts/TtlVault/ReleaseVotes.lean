/-
**Votes on a release** (`beneficiary_workflows.rs`, `withdrawals.rs`).

The beneficiaries of a vault vote, each once; a release counts the approvals that are stored. A vote
stays when its voter is removed from the vault.
-/

import EthosContracts.TtlVault.Transition

namespace EthosContracts.TtlVault

open Lib List

variable (s : State) (id : VaultId)

/-- The vote on the release of a vault that a call casts. -/
def Call.vote : Call → Option (Address × Bool)
  | .record (.castReleaseVote vaultId voter approve) =>
    if vaultId = id then some (voter, approve) else none
  | _ => none

def castVotes (history : History) : List (Address × Bool) :=
  history.filterMap fun event => event.input.call.vote id

/-- The latest vote of the address is an approval. -/
def LatestApproves (history : History) (voter : Address) : Prop :=
  ((castVotes id history).filter (·.1 = voter)).getLast? = some (voter, true)

/-- Named as the beneficiary or on the list. -/
def Vault.HasBeneficiary (v : Vault) (address : Address) : Prop :=
  address = v.beneficiary ∨ ∃ entry ∈ v.beneficiaries, entry.address = address

instance (v : Vault) : DecidablePred v.HasBeneficiary :=
  fun address => inferInstanceAs (Decidable (address = v.beneficiary ∨ _))

/-- **A release as it should be**: if a threshold is set, so many different beneficiaries of the
vault have approved in their latest vote. -/
def Decided (earlier : History) (event : VaultEvent) : Prop :=
  ∀ k ∈ event.before.beneficiaries.releaseVoteThreshold id, ∀ v ∈ event.before.vaults id,
    ∃ voters : List Address, voters.Nodup ∧ k ≤ voters.length ∧
      ∀ voter ∈ voters, v.HasBeneficiary voter ∧ LatestApproves id earlier voter

def State.votes : List (Address × Bool) :=
  (s.beneficiaries.releaseVotes id).map fun vote => (vote.voter, vote.approve)

def State.approving : List Address :=
  ((s.votes id).filter (·.2)).map Prod.fst

section Steps

variable {s : State} {id : VaultId} {history : History}

theorem exec_votes (env : Env) (call : Call) (s : State) (id : VaultId) :
    (exec env call).wp s fun _ t => t.votes id = s.votes id ++ (call.vote id).toList ∧
      ∀ vote ∈ call.vote id, vote.1 ∉ (s.votes id).map Prod.fst := by
  by_cases about : call.votes = true
  · cases call with
    | record call =>
      cases call with
      | setReleaseVoteThreshold =>
        simp only [exec.eq_def, execRecord.eq_def, setReleaseVoteThreshold, wp_rules]
        intros
        exact ⟨(append_nil _).symm, (by rintro _ ⟨⟩)⟩
      | castReleaseVote vaultId =>
        simp only [exec.eq_def, execRecord.eq_def, castReleaseVote, wp_rules]
        intro _ _ _ _ _ new
        by_cases same : vaultId = id
        · subst same
          simpa [State.votes, Call.vote] using new
        · simp [State.votes, Call.vote, same, Ne.symm same]
      | _ => cases about
    | _ => cases about
  · have silent : call.vote id = none := by
      unfold Call.vote
      split
      · exact absurd rfl about
      · rfl
    refine (exec_side SideBooks.votes (fun _ _ => rfl) env call
      (Bool.eq_false_of_not_eq_true about) s).mono fun _ t same => ?_
    simp [State.votes, silent, congrFun (Prod.mk.inj same).2 id]

theorem triggerRelease_voted (env : Env) (s : State) (id : VaultId) :
    (triggerRelease env id).wp s fun _ _ =>
      ∀ k ∈ s.beneficiaries.releaseVoteThreshold id, k ≤ (s.approving id).length := by
  have counted : (assertReleaseVoted env id).wp s fun _ _ =>
      ∀ k ∈ s.beneficiaries.releaseVoteThreshold id, k ≤ (s.approving id).length := by
    have same : (s.approving id).length =
        ((s.beneficiaries.releaseVotes id).filter (·.approve)).length := by
      simp [State.approving, State.votes, filter_map, Function.comp_def]
    rw [same]
    simp only [assertReleaseVoted, wp_rules]
    split <;> simp
  simp only [triggerRelease, triggerReleaseInternal, wp_rules]
  intro _ v found _ _
  refine (anyConditionMet_readonly env id _ _).wp fun _ _ => ?_
  refine (isExpired_readonly env id).wp fun _ _ => ?_
  refine (assertGracePeriodOver_readonly env id v).wp fun _ => ?_
  refine (assertNotVetoed_readonly env id).wp fun _ => ?_
  refine (assertBeneficiaryAccepts_readonly id v _).wp fun _ => ?_
  refine counted.mono fun _ t enough => ?_
  exact ⟨fun _ => .const enough, fun _ => .mono (.const enough) fun _ _ _ =>
    ⟨fun _ => enough, fun _ => .const enough⟩⟩

theorem latestApproves_iff (once : ((castVotes id history).map Prod.fst).Nodup) {voter : Address} :
    LatestApproves id history voter ↔ (voter, true) ∈ castVotes id history := by
  constructor
  · intro latest
    exact mem_of_mem_filter (mem_of_getLast? latest)
  · intro member
    have own : (voter, true) ∈ (castVotes id history).filter (·.1 = voter) := by simp [member]
    obtain ⟨vote, latest⟩ :=
      Option.isSome_iff_exists.mp (List.getLast?_isSome.mpr (ne_nil_of_mem own))
    have found := mem_filter.mp (mem_of_getLast? latest)
    have same : vote = (voter, true) :=
      inj_on_of_nodup_map once found.1 member (of_decide_eq_true found.2)
    rw [LatestApproves, latest, same]

end Steps

section Runs

variable {host : Host} {start s : State} {history : History} {id : VaultId}
  (run : ContractRun host start history s) (fresh : start.beneficiaries.releaseVotes id = [])
include run fresh

theorem run_votes : s.votes id = castVotes id history ∧
    ((castVotes id history).map Prod.fst).Nodup := by
  refine run.history_invariant
    (fun history s => s.votes id = castVotes id history ∧ ((castVotes id history).map Prod.fst).Nodup)
    ?_ ?_
  · simp [State.votes, fresh, castVotes]
  · intro history s input t _ ⟨same, once⟩ stepped
    obtain ⟨added, new⟩ := exec_votes input.env input.call s id () t stepped.2
    have more : castVotes id (history ++ [⟨s, input, t⟩]) = t.votes id := by
      rw [added, same]
      cases cast : input.call.vote id <;> simp [castVotes, cast]
    rw [more, added]
    rw [← same] at once
    refine ⟨rfl, ?_⟩
    cases cast : input.call.vote id with
    | none => simpa using once
    | some vote =>
      rw [Option.toList_some, map_append, map_singleton, ← concat_eq_append]
      exact once.concat (new vote cast)

/-- **When releases are decided by the beneficiaries.** In every run, exactly if at each release no
more of those who approved have ceased to be beneficiaries than there are approvals beyond the
threshold. -/
theorem decided_iff :
    (∀ earlier event later, history = earlier ++ event :: later →
      event.input.call = .triggerRelease id → Decided id earlier event) ↔
    ∀ event ∈ history, event.input.call = .triggerRelease id →
      ∀ k ∈ event.before.beneficiaries.releaseVoteThreshold id, ∀ v ∈ event.before.vaults id,
        ((event.before.approving id).filter fun voter => ¬ v.HasBeneficiary voter).length ≤
          (event.before.approving id).length - k := by
  refine run.forall_split_iff fun earlier event before stepped called => ?_
  have ran := stepped.2
  rw [called] at ran
  have counted := triggerRelease_voted event.input.env event.before id () event.after ran
  obtain ⟨stored, once⟩ := run_votes before fresh
  have approves (voter : Address) :
      voter ∈ event.before.approving id ↔ LatestApproves id earlier voter := by
    simp [State.approving, latestApproves_iff once, stored]
  have ne : (event.before.approving id).Nodup := by
    rw [← stored] at once
    exact once.sublist (filter_sublist.map _)
  refine forall₄_congr fun k set v found => ?_
  have enough := counted k set
  have parts := length_eq_length_filter_add (l := event.before.approving id) (v.HasBeneficiary ·)
  simp only [← decide_not] at parts
  constructor
  · intro ⟨voters, distinct, many, each⟩
    have listed : voters ⊆ (event.before.approving id).filter (v.HasBeneficiary ·) := by
      intro voter member
      obtain ⟨current, latest⟩ := each voter member
      exact mem_filter.mpr ⟨(approves voter).mpr latest, decide_eq_true current⟩
    have count := (subperm_of_subset distinct listed).length_le
    omega
  · intro departed
    refine ⟨(event.before.approving id).filter (v.HasBeneficiary ·), ne.filter _, by omega, ?_⟩
    intro voter member
    obtain ⟨approving, current⟩ := mem_filter.mp member
    exact ⟨of_decide_eq_true current, (approves voter).mp approving⟩

end Runs

def votedRelease (between : Scenario) : Scenario :=
  [(1000, ⟨3⟩, .createVault ⟨3⟩ ⟨4⟩ 86400 none), (1001, ⟨3⟩, .deposit 1 ⟨3⟩ 100),
   (1002, ⟨3⟩, .setBeneficiaries 1 ⟨3⟩ [⟨⟨4⟩, 5000, 0⟩, ⟨⟨5⟩, 5000, 0⟩]),
   (1003, ⟨3⟩, .record (.setReleaseVoteThreshold 1 ⟨3⟩ 1)),
   (1004, ⟨5⟩, .record (.castReleaseVote 1 ⟨5⟩ true))] ++ between ++
  [(1006, ⟨4⟩, .record (.submitProofOfLife 1 ⟨4⟩ 2592000)), (100000, ⟨4⟩, .triggerRelease 1)]

theorem decided_votedRelease :
    (let run := played (votedRelease [])
     run.2.payouts = [⟨1, ⟨1⟩, ⟨4⟩, 50⟩, ⟨1, ⟨1⟩, ⟨5⟩, 50⟩] ∧ ∀ earlier event later,
      run.1 = earlier ++ event :: later → event.input.call = .triggerRelease 1 →
      Decided 1 earlier event) := by
  have current : ∀ event ∈ (played (votedRelease [])).1,
      ∀ k ∈ event.before.beneficiaries.releaseVoteThreshold 1, ∀ v ∈ event.before.vaults 1,
        ((event.before.approving 1).filter fun voter => ¬ v.HasBeneficiary voter).length ≤
          (event.before.approving 1).length - k := by
    decide +kernel
  refine ⟨by decide +kernel, (decided_iff (plainInputs_run _) rfl).mpr ?_⟩
  exact fun event member _ => current event member

/-- The owner removes the beneficiary that approved, and the release goes through. -/
theorem released_without_vote :
    (let run := played (votedRelease [(1005, ⟨3⟩, .removeBeneficiary 1 ⟨3⟩ ⟨5⟩)])
     PlainRun run.1 run.2 ∧ run.2.payouts = [⟨1, ⟨1⟩, ⟨4⟩, 100⟩] ∧
      ¬ ∀ earlier event later, run.1 = earlier ++ event :: later →
        event.input.call = .triggerRelease 1 → Decided 1 earlier event) := by
  refine ⟨plainInputs_run _, by decide +kernel, fun all => ?_⟩
  have decided := all ((played (votedRelease
    [(1005, ⟨3⟩, .removeBeneficiary 1 ⟨3⟩ ⟨5⟩)])).1.take 7) _ [] rfl rfl
  obtain ⟨voters, -, some, each⟩ := decided 1 rfl _ rfl
  cases voters with
  | nil => cases some
  | cons voter rest =>
    obtain ⟨current, latest⟩ := each voter mem_cons_self
    have cast := mem_of_mem_filter (mem_of_getLast? latest)
    obtain rfl := (Prod.mk.inj (mem_singleton.mp cast)).1
    revert current
    decide +kernel

end EthosContracts.TtlVault
