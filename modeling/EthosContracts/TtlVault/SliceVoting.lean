/-
**Votes on slice modifications.**

Attestors vote on a proposal until its deadline; `resolve_modification_voting` then counts the votes
and `execute_slice_modification` applies what was approved. None of the calls asks for a signature.
-/

import Mathlib.Data.List.Nodup
import EthosContracts.TtlVault.State
import EthosContracts.Lib.Replay
import EthosContracts.Lib.Table

namespace EthosContracts.TtlVault

open Lib Function List

variable (key : ProposalKey) (proposal : ModificationProposal) (now sliceId proposalId : Nat)

/-! ### Storage -/

namespace SliceVoting

def defaultVotingPeriod : Nat := 604800
def defaultMinQuorum : Nat := 1

inductive ProposalStatus
  | pending
  | approved
  | rejected
  | executed
deriving DecidableEq

inductive SliceModification
  | updateMetadata (tag : Nat)
  | updateRules (ruleIdsLen : Nat)
  | reweightAttestors (attestorAddressesLen : Nat)
deriving DecidableEq

structure ModificationProposal where
  sliceId : Nat
  proposalId : Nat
  proposedChanges : Bytes
  proposer : Address
  status : ProposalStatus
  votingDeadline : Nat
  approveCount : Nat
  rejectCount : Nat
  totalAttestors : Nat
  createdAt : Nat
deriving DecidableEq

structure ModificationRecord where
  proposalId : Nat
  proposedChanges : Bytes
  proposer : Address
  executedAt : Nat
  approveCount : Nat
  totalAttestors : Nat
deriving DecidableEq

abbrev ProposalKey : Type := Nat × Nat

structure VotingState where
  sliceProposalCounter : Nat → Nat := fun _ => 0
  modificationProposal : ProposalKey → Option ModificationProposal := fun _ => none
  proposalVotes : ProposalKey → List (Address × Bool) := fun _ => []
  modificationHistory : Nat → List ModificationRecord := fun _ => []
  attestorRegistry : List Address := []
  votingConfig : Option Nat := none

abbrev VotingTx (α : Type) : Type := Tx ContractError VotingState α

def VotingState.minQuorum (s : VotingState) : Nat := s.votingConfig.getD defaultMinQuorum

def setProposal : VotingTx Unit :=
  write fun s => { s with
    modificationProposal := update s.modificationProposal key (some proposal) }

/-! ### Calls -/

def registerAttestorRegistry (attestors : List Address) : VotingTx Unit :=
  write fun s => { s with attestorRegistry := attestors }

def setVotingConfig (minQuorum : Nat) : VotingTx Unit :=
  write fun s => { s with votingConfig := some minQuorum }

def isRegisteredAttestor (s : VotingState) (address : Address) : Bool :=
  address ∈ s.attestorRegistry

/-- A tag, and a big-endian number. -/
def parseSliceModification : Bytes → Option SliceModification
  | tag :: b₁ :: b₂ :: b₃ :: b₄ :: _ =>
    let value := ((b₁.toNat * 256 + b₂.toNat) * 256 + b₃.toNat) * 256 + b₄.toNat
    if tag = 0 then some (.updateMetadata value)
    else if tag = 1 then some (.updateRules value)
    else if tag = 2 then some (.reweightAttestors value)
    else none
  | _ => none

/-- Every parsed modification counts as applied; none changes a slice. -/
def applySliceModification : SliceModification → Bool
  | .updateMetadata _ => true
  | .updateRules _ => true
  | .reweightAttestors _ => true

def proposeSliceModification (proposedChanges : Bytes) (proposer : Address) : VotingTx Nat := do
  let counter ← read (·.sliceProposalCounter sliceId)
  let proposalId := saturatingAdd counter 1
  let attestors ← read VotingState.attestorRegistry
  setProposal (sliceId, proposalId)
    ⟨sliceId, proposalId, proposedChanges, proposer, .pending,
      saturatingAdd now defaultVotingPeriod, 0, 0, attestors.length, now⟩
  write fun s => { s with
    sliceProposalCounter := update s.sliceProposalCounter sliceId proposalId }
  pure proposalId

def ModificationProposal.count (approve : Bool) : ModificationProposal :=
  if approve then { proposal with approveCount := min (proposal.approveCount + 1) maxU32 }
  else { proposal with rejectCount := min (proposal.rejectCount + 1) maxU32 }

def voteOnModification (voter : Address) (approve : Bool) : VotingTx Bool := do
  let registered ← read (isRegisteredAttestor · voter)
  if registered = false then return false
  let stored ← read (·.modificationProposal (sliceId, proposalId))
  match stored with
  | none => return false
  | some proposal =>
    if proposal.status ≠ .pending then return false
    if proposal.votingDeadline < now then return false
    let votes ← read (·.proposalVotes (sliceId, proposalId))
    if voter ∈ votes.map Prod.fst then return false
    write fun s => { s with
      proposalVotes :=
        update s.proposalVotes (sliceId, proposalId) (votes ++ [(voter, approve)]) }
    setProposal (sliceId, proposalId) (proposal.count approve)
    return true

/-- At least half of the attestors, if there are any. -/
def ModificationProposal.isApproved : Bool :=
  0 < proposal.totalAttestors ∧ proposal.totalAttestors * 50 ≤ proposal.approveCount * 100

def ModificationProposal.resolve : ModificationProposal :=
  { proposal with status := if proposal.isApproved then .approved else .rejected }

/-- The deadline is not read. -/
def resolveModificationVoting : VotingTx Bool := do
  let stored ← read (·.modificationProposal (sliceId, proposalId))
  match stored with
  | none => return false
  | some proposal =>
    if proposal.status ≠ .pending then return false
    let minQuorum ← read VotingState.minQuorum
    ensure (minQuorum ≤ min (proposal.approveCount + proposal.rejectCount) maxU32)
      .insufficientQuorum
    setProposal (sliceId, proposalId) proposal.resolve
    return true

def executeSliceModification : VotingTx Bool := do
  let stored ← read (·.modificationProposal (sliceId, proposalId))
  match stored with
  | none => return false
  | some proposal =>
    if proposal.status ≠ .approved then return false
    match parseSliceModification proposal.proposedChanges with
    | none => return false
    | some modification =>
      if applySliceModification modification = false then return false
      setProposal (sliceId, proposalId) { proposal with status := .executed }
      write fun s => { s with
        modificationHistory := update s.modificationHistory sliceId
          (s.modificationHistory sliceId ++ [⟨proposalId, proposal.proposedChanges,
            proposal.proposer, now, proposal.approveCount, proposal.totalAttestors⟩]) }
      return true

inductive VotingCall
  | registerAttestorRegistry (attestors : List Address)
  | setVotingConfig (minQuorum : Nat)
  | proposeSliceModification (sliceId : Nat) (proposedChanges : Bytes) (proposer : Address)
  | voteOnModification (sliceId proposalId : Nat) (voter : Address) (approve : Bool)
  | resolveModificationVoting (sliceId proposalId : Nat)
  | executeSliceModification (sliceId proposalId : Nat)

structure VotingInput where
  now : Nat
  call : VotingCall

def execVoting (input : VotingInput) : VotingTx Unit :=
  match input.call with
  | .registerAttestorRegistry a => registerAttestorRegistry a
  | .setVotingConfig a => setVotingConfig a
  | .proposeSliceModification a b c => do
    let _ ← proposeSliceModification input.now a b c
    pure ()
  | .voteOnModification a b c d => do
    let _ ← voteOnModification input.now a b c d
    pure ()
  | .resolveModificationVoting a b => do
    let _ ← resolveModificationVoting a b
    pure ()
  | .executeSliceModification a b => do
    let _ ← executeSliceModification input.now a b
    pure ()

abbrev VotingEvent : Type := Event VotingState VotingInput

abbrev VotingRun : List VotingEvent → VotingState → Prop := Run (Executes execVoting) {}

/-! ### The voters' decision -/

/-- The ballots after one more event: a proposal starts with none, and a recorded vote adds one. -/
def addBallot (ballots : List (Address × Bool)) (event : VotingEvent) : List (Address × Bool) :=
  match event.input.call with
  | .proposeSliceModification sliceId _ _ =>
    if key = (sliceId, event.after.sliceProposalCounter sliceId) then [] else ballots
  | .voteOnModification sliceId proposalId voter approve =>
    if key = (sliceId, proposalId) ∧ event.after.proposalVotes key ≠ event.before.proposalVotes key
    then ballots ++ [(voter, approve)] else ballots
  | _ => ballots

/-- **The ballots on the proposal that a key stands for.** -/
def ballots (history : List VotingEvent) : List (Address × Bool) :=
  history.foldl (addBallot key) []

/-- Every attestor on record has cast a ballot. -/
def AllVoted (earlier : List VotingEvent) (s : VotingState) (key : ProposalKey) : Prop :=
  ∀ attestor ∈ s.attestorRegistry, attestor ∈ (ballots key earlier).map Prod.fst

/-- A registered attestor has voted on the proposal that `key` stands for. -/
def Cast (earlier : List VotingEvent) (key : ProposalKey) (attestor : Address) (approve : Bool) :
    Prop :=
  (attestor, approve) ∈ ballots key earlier ∧
    ∃ event ∈ earlier, event.input.call = .voteOnModification key.1 key.2 attestor approve ∧
      attestor ∈ event.before.attestorRegistry

/-- Pairwise different attestors have voted for a proposal, at least half of all, and the quorum is
met. -/
structure Supported (earlier : List VotingEvent) (s : VotingState) (key : ProposalKey)
    (proposal : ModificationProposal) : Prop where
  approvers : ∃ approvers : List Address, approvers.Nodup ∧
    (∀ attestor ∈ approvers, Cast earlier key attestor true) ∧
    proposal.totalAttestors ≤ 2 * approvers.length
  quorum : ∃ voters : List Address, voters.Nodup ∧
    (∀ attestor ∈ voters, ∃ approve, Cast earlier key attestor approve) ∧
    s.minQuorum ≤ voters.length

/-- The modification is recorded as executed. -/
def Applies (event : VotingEvent) : Prop :=
  ∃ record : ModificationRecord, record.proposalId = key.2 ∧
    event.after.modificationHistory key.1 = event.before.modificationHistory key.1 ++ [record]

def Proposes (event : VotingEvent) : Prop :=
  ∃ proposedChanges proposer,
    event.input.call = .proposeSliceModification key.1 proposedChanges proposer ∧
      event.after.sliceProposalCounter key.1 = key.2

/-- **The outcome of a vote is the voters' decision**, at one event after others. -/
structure VotersDecision (earlier : List VotingEvent) (event : VotingEvent) : Prop where
  inTime : ∀ key proposal after, event.before.modificationProposal key = some proposal →
    proposal.status = .pending → event.after.modificationProposal key = some after →
    after.status ≠ .pending →
    proposal.votingDeadline < event.input.now ∨ AllVoted earlier event.before key
  supported : ∀ key after, event.after.modificationProposal key = some after →
    after.status = .approved →
    (∀ proposal ∈ event.before.modificationProposal key, proposal.status ≠ .approved) →
    Supported earlier event.before key after
  approved : ∀ key, Applies key event →
    ∃ proposal ∈ event.before.modificationProposal key, proposal.status = .approved
  once : ∀ key, Applies key event → ∀ before first between, earlier = before ++ first :: between →
    Applies key first → ∃ other ∈ between, Proposes key other

/-- The vote is closed after its deadline, or when everybody has voted. -/
def Timely (earlier : List VotingEvent) (event : VotingEvent) : Prop :=
  ∀ sliceId proposalId, event.input.call = .resolveModificationVoting sliceId proposalId →
    ∀ proposal ∈ event.before.modificationProposal (sliceId, proposalId),
      proposal.status = .pending →
      proposal.votingDeadline < event.input.now ∨
        AllVoted earlier event.before (sliceId, proposalId)

/-! ### What one call does -/

/-- **What one call does to the proposals and the votes.** -/
inductive VotingStep (input : VotingInput) (s t : VotingState) : Prop
  | proposes (key proposal proposedChanges proposer)
      (call : input.call = .proposeSliceModification key.1 proposedChanges proposer)
      (pending : proposal.status = .pending) (approvals : proposal.approveCount = 0)
      (rejections : proposal.rejectCount = 0)
      (after : t = { s with
        modificationProposal := update s.modificationProposal key (some proposal)
        sliceProposalCounter := update s.sliceProposalCounter key.1 key.2 })
  | votes (key proposal voter) (approve : Bool)
      (call : input.call = .voteOnModification key.1 key.2 voter approve)
      (registered : voter ∈ s.attestorRegistry)
      (stored : s.modificationProposal key = some proposal)
      (new : voter ∉ (s.proposalVotes key).map Prod.fst)
      (after : t = { s with
        modificationProposal :=
          update s.modificationProposal key (some (proposal.count approve))
        proposalVotes :=
          update s.proposalVotes key (s.proposalVotes key ++ [(voter, approve)]) })
  | resolves (key : ProposalKey) (proposal : ModificationProposal)
      (call : input.call = .resolveModificationVoting key.1 key.2)
      (stored : s.modificationProposal key = some proposal) (pending : proposal.status = .pending)
      (quorum : s.minQuorum ≤ proposal.approveCount + proposal.rejectCount)
      (after : t = { s with
        modificationProposal := update s.modificationProposal key (some proposal.resolve) })
  | applies (key proposal record) (call : input.call = .executeSliceModification key.1 key.2)
      (stored : s.modificationProposal key = some proposal) (approved : proposal.status = .approved)
      (named : record.proposalId = key.2)
      (after : t = { s with
        modificationProposal :=
          update s.modificationProposal key (some { proposal with status := .executed })
        modificationHistory := update s.modificationHistory key.1
          (s.modificationHistory key.1 ++ [record]) })
  | keeps (call : ∀ sliceId proposedChanges proposer,
        input.call ≠ .proposeSliceModification sliceId proposedChanges proposer)
      (settled : ∀ sliceId proposalId,
        input.call = .resolveModificationVoting sliceId proposalId →
        ∀ proposal ∈ s.modificationProposal (sliceId, proposalId), proposal.status ≠ .pending)
      (proposals : t.modificationProposal = s.modificationProposal)
      (votes : t.proposalVotes = s.proposalVotes)
      (history : t.modificationHistory = s.modificationHistory)

section Step

variable {now : Nat} {s : VotingState}

@[simp] theorem voteOnModification_step (voter : Address) (approve : Bool) :
    (voteOnModification now sliceId proposalId voter approve).wp s fun _ t => VotingStep
    ⟨now, .voteOnModification sliceId proposalId voter approve⟩ s t := by
  have refused : VotingStep ⟨now, .voteOnModification sliceId proposalId voter approve⟩ s s :=
    .keeps (by simp) (by simp) rfl rfl rfl
  simp only [voteOnModification, wp_core]
  refine ⟨fun _ => refused, fun registered => ?_⟩
  cases stored : s.modificationProposal (sliceId, proposalId) with
  | none => exact (wp_pure _ _ _).mpr refused
  | some proposal =>
    simp only [wp_core, setProposal]
    refine ⟨fun _ => refused, fun _ => ⟨fun _ => refused, fun _ => ⟨fun _ => refused, ?_⟩⟩⟩
    intro new
    refine .votes (sliceId, proposalId) proposal voter approve rfl ?_ stored new rfl
    simpa [isRegisteredAttestor] using registered

@[simp] theorem resolveModificationVoting_step : (resolveModificationVoting sliceId proposalId).wp s
    fun _ t => VotingStep ⟨now, .resolveModificationVoting sliceId proposalId⟩ s t := by
  simp only [resolveModificationVoting, wp_core]
  cases stored : s.modificationProposal (sliceId, proposalId) with
  | none =>
    refine (wp_pure _ _ _).mpr (.keeps (by simp) ?_ rfl rfl rfl)
    rintro _ _ ⟨⟩
    simp [stored]
  | some proposal =>
    simp only [wp_core, setProposal]
    refine ⟨fun settled => .keeps (by simp) ?_ rfl rfl rfl, fun open_ quorum => ?_⟩
    · rintro _ _ ⟨⟩
      simpa [stored] using settled
    · refine .resolves (sliceId, proposalId) proposal rfl stored (not_not.mp open_) ?_ rfl
      exact quorum.trans (min_le_left ..)

@[simp] theorem executeSliceModification_step : (executeSliceModification now sliceId proposalId).wp
    s fun _ t => VotingStep ⟨now, .executeSliceModification sliceId proposalId⟩ s t := by
  have refused : VotingStep ⟨now, .executeSliceModification sliceId proposalId⟩ s s :=
    .keeps (by simp) (by simp) rfl rfl rfl
  simp only [executeSliceModification, wp_core]
  cases stored : s.modificationProposal (sliceId, proposalId) with
  | none => exact (wp_pure _ _ _).mpr refused
  | some proposal =>
    simp only [wp_ite, wp_pure]
    refine ⟨fun _ => refused, fun approved => ?_⟩
    cases parseSliceModification proposal.proposedChanges with
    | none => exact (wp_pure _ _ _).mpr refused
    | some =>
      simp only [wp_core, setProposal]
      refine ⟨fun _ => refused, fun _ => ?_⟩
      exact .applies (sliceId, proposalId) proposal _ rfl stored (not_not.mp approved) rfl rfl

theorem execVoting_step {input : VotingInput} :
    (execVoting input).wp s fun _ t => VotingStep input s t := by
  obtain ⟨now, call⟩ := input
  unfold execVoting
  cases call with
  | registerAttestorRegistry | setVotingConfig =>
    simp only [registerAttestorRegistry, setVotingConfig, wp_write]
    exact .keeps (by simp) (by simp) rfl rfl rfl
  | proposeSliceModification sliceId proposedChanges proposer =>
    simp only [proposeSliceModification, setProposal, wp_core]
    exact .proposes (sliceId, saturatingAdd (s.sliceProposalCounter sliceId) 1) _ proposedChanges
      proposer rfl rfl rfl rfl rfl
  | _ => simp

end Step

section Ballots

variable {history : List VotingEvent} {s t : VotingState} {input : VotingInput}

theorem ballots_concat (history : List VotingEvent) (event : VotingEvent) : ballots key
    (history ++ [event]) = addBallot key (ballots key history) event := by
  rw [ballots, foldl_append]
  rfl

theorem addBallot_quiet {event : VotingEvent} (call : ∀ sliceId proposedChanges proposer,
      event.input.call ≠ .proposeSliceModification sliceId proposedChanges proposer)
    (votes : event.after.proposalVotes = event.before.proposalVotes) (key : ProposalKey)
    (given : List (Address × Bool)) : addBallot key given event = given := by
  unfold addBallot
  split
  · rename_i proposed
    exact absurd proposed (call _ _ _)
  · rw [votes]
    exact if_neg fun changed => changed.2 rfl
  · rfl

/-- **The invariant** of a proposal: different attestors with one ballot each, all of them recorded
votes, and counters that do not exceed them. -/
structure Tallied (key : ProposalKey) (history : List VotingEvent) (s : VotingState) : Prop where
  distinct : ((ballots key history).map Prod.fst).Nodup
  recorded : ballots key history ⊆ s.proposalVotes key
  cast : ∀ ballot ∈ ballots key history, Cast history key ballot.1 ballot.2
  counted : ∀ proposal ∈ s.modificationProposal key,
    proposal.approveCount ≤ (ballots key history).countP (·.2) ∧
      proposal.rejectCount ≤ (ballots key history).countP (!·.2)

theorem Cast.later {key : ProposalKey} {ballot : Address × Bool} {event : VotingEvent}
    (cast : Cast history key ballot.1 ballot.2)
    (kept : ballot ∈ ballots key (history ++ [event])) :
    Cast (history ++ [event]) key ballot.1 ballot.2 := by
  obtain ⟨-, vote, member, call⟩ := cast
  exact ⟨kept, vote, mem_append_left _ member, call⟩

namespace Tallied

variable {proposal : ModificationProposal} {key : ProposalKey} {event : VotingEvent}
  (tallied : Tallied key history s)
include tallied

theorem keep (same : ballots key (history ++ [event]) = ballots key history)
    (votes : t.proposalVotes key = s.proposalVotes key)
    (counters : ∀ after ∈ t.modificationProposal key, ∃ proposal ∈ s.modificationProposal key,
      after.approveCount = proposal.approveCount ∧ after.rejectCount = proposal.rejectCount) :
    Tallied key (history ++ [event]) t := by
  refine ⟨same ▸ tallied.distinct, ?_, fun ballot member => ?_, fun after stored => ?_⟩
  · rw [same, votes]
    exact tallied.recorded
  · exact (tallied.cast ballot (same ▸ member)).later member
  · obtain ⟨proposal, kept, approvals, rejections⟩ := counters after stored
    rw [same, approvals, rejections]
    exact tallied.counted proposal kept

theorem vote {voter : Address} {approve : Bool}
    (call : event.input.call = .voteOnModification key.1 key.2 voter approve)
    (registered : voter ∈ event.before.attestorRegistry)
    (stored : s.modificationProposal key = some proposal)
    (absent : voter ∉ (s.proposalVotes key).map Prod.fst)
    (added : ballots key (history ++ [event]) = ballots key history ++ [(voter, approve)])
    (votes : t.proposalVotes key = s.proposalVotes key ++ [(voter, approve)])
    (counted : t.modificationProposal key = some (proposal.count approve)) :
    Tallied key (history ++ [event]) t := by
  have silent : voter ∉ (ballots key history).map Prod.fst :=
    fun member => absent (map_subset _ tallied.recorded member)
  refine ⟨?_, ?_, fun ballot member => ?_, fun after present => ?_⟩
  · rw [added, map_append]
    refine nodup_append.mpr ⟨tallied.distinct, nodup_singleton _, ?_⟩
    rintro attestor member other last rfl
    rw [map_singleton, mem_singleton] at last
    rw [last] at member
    exact silent member
  · rw [added, votes]
    exact append_subset.mpr ⟨List.Subset.trans tallied.recorded
      (subset_append_left ..), subset_append_right ..⟩
  · have parts := member
    rw [added] at parts
    rcases mem_append.mp parts with earlier | last
    · exact (tallied.cast ballot earlier).later member
    · rw [mem_singleton] at last
      subst last
      exact ⟨member, event, mem_concat_self, call, registered⟩
  · cases counted.symm.trans present
    have before := tallied.counted proposal stored
    rw [added, countP_append, countP_append]
    cases approve <;> simp [ModificationProposal.count] <;> omega

theorem step (stepped : VotingStep input s t) : Tallied key (history ++ [⟨s, input, t⟩]) t := by
  cases stepped with
  | proposes other proposal proposedChanges proposer call _ approvals rejections after =>
    have new := ballots_concat key history ⟨s, input, t⟩
    subst after
    simp only [addBallot, call, update_self] at new
    by_cases here : key = other
    · subst here
      rw [if_pos rfl] at new
      refine ⟨?_, ?_, ?_, fun after stored => ?_⟩ <;> rw [new]
      · exact nodup_nil
      · exact nil_subset _
      · exact forall_mem_nil _
      · obtain rfl : proposal = after := by simpa using stored
        exact ⟨approvals.le, rejections.le⟩
    · refine tallied.keep (new.trans (if_neg here)) rfl fun after stored => ?_
      exact ⟨after, (update_of_ne here ..).symm.trans stored, rfl, rfl⟩
  | votes other proposal voter approve call registered stored absent after =>
    have new := ballots_concat key history ⟨s, input, t⟩
    subst after
    simp only [addBallot, call] at new
    by_cases here : key = other
    · subst here
      refine tallied.vote call registered stored absent ?_ (update_self ..) (update_self ..)
      simpa using new
    · refine tallied.keep ?_ (update_of_ne here ..) fun after stored => ?_
      · simpa [here] using new
      · exact ⟨after, (update_of_ne here ..).symm.trans stored, rfl, rfl⟩
  | resolves other proposal call stored _ _ after
  | applies other proposal record call stored _ _ after =>
    subst after
    refine tallied.keep ?_ rfl fun after present => ?_
    · rw [ballots_concat]
      exact addBallot_quiet (fun _ _ _ proposed => by cases call.symm.trans proposed) rfl key _
    · rcases update_eq_some_iff.mp present with ⟨rfl, rfl⟩ | ⟨-, kept⟩
      · exact ⟨proposal, stored, rfl, rfl⟩
      · exact ⟨after, kept, rfl, rfl⟩
  | keeps call _ proposals votes _ =>
    refine tallied.keep ?_ (congrFun votes key) fun proposal kept => ?_
    · rw [ballots_concat]
      exact addBallot_quiet call votes key _
    · rw [proposals] at kept
      exact ⟨proposal, kept, rfl, rfl⟩

end Tallied

theorem run_tallied (run : VotingRun history s) (key : ProposalKey) : Tallied key history s := by
  refine run.history_invariant (Tallied key) ?_ fun _ _ _ _ _ tallied stepped =>
    tallied.step (execVoting_step () _ stepped)
  constructor <;> simp [ballots]

end Ballots

section Runs

variable {history earlier : List VotingEvent} {s t : VotingState} {event : VotingEvent}
variable {key : ProposalKey}

@[simp] theorem count_status (approve : Bool) : (proposal.count approve).status = proposal.status :=
    by
  cases approve <;> rfl

theorem VotingStep.fate {input : VotingInput} (stepped : VotingStep input s t) (key : ProposalKey) :
    (Proposes key ⟨s, input, t⟩ ∧
        ∃ after, t.modificationProposal key = some after ∧ after.status = .pending) ∨
      t.modificationProposal key = s.modificationProposal key ∨
      ∃ proposal after, s.modificationProposal key = some proposal ∧
        t.modificationProposal key = some after ∧ (after.status = proposal.status ∨
          input.call = .resolveModificationVoting key.1 key.2 ∧ proposal.status = .pending ∧
            s.minQuorum ≤ proposal.approveCount + proposal.rejectCount ∧ after = proposal.resolve ∨
          proposal.status = .approved ∧ after.status = .executed) := by
  cases stepped with
  | proposes other proposal changes proposer call pending _ _ same =>
    subst same
    by_cases here : key = other
    · subst here
      exact .inl ⟨⟨changes, proposer, call, update_self ..⟩, proposal, update_self .., pending⟩
    · exact .inr (.inl (update_of_ne here ..))
  | votes other proposal _ _ _ _ before _ same =>
    subst same
    by_cases here : key = other
    · subst here
      exact .inr (.inr ⟨proposal, _, before, update_self .., .inl (count_status ..)⟩)
    · exact .inr (.inl (update_of_ne here ..))
  | resolves other proposal call before pending quorum same =>
    subst same
    by_cases here : key = other
    · subst here
      exact .inr (.inr ⟨proposal, _, before, update_self .., .inr (.inl ⟨call, pending, quorum, rfl⟩)⟩)
    · exact .inr (.inl (update_of_ne here ..))
  | applies other proposal _ _ before approved _ same =>
    subst same
    by_cases here : key = other
    · subst here
      exact .inr (.inr ⟨proposal, _, before, update_self .., .inr (.inr ⟨approved, rfl⟩)⟩)
    · exact .inr (.inl (update_of_ne here ..))
  | keeps _ _ proposals _ _ => exact .inr (.inl (congrFun proposals key))

theorem Tallied.supported (tallied : Tallied key earlier s) {proposal : ModificationProposal}
    (stored : s.modificationProposal key = some proposal) (approved : proposal.isApproved = true)
    (quorum : s.minQuorum ≤ proposal.approveCount + proposal.rejectCount) :
    Supported earlier s key proposal.resolve := by
  have counted := tallied.counted proposal stored
  constructor
  · refine ⟨((ballots key earlier).filter (·.2)).map Prod.fst, ?_, ?_, ?_⟩
    · exact tallied.distinct.sublist (filter_sublist.map _)
    · intro attestor member
      obtain ⟨ballot, kept, rfl⟩ := mem_map.mp member
      obtain ⟨cast, approves⟩ := mem_filter.mp kept
      rw [← approves]
      exact tallied.cast ballot cast
    · have half : proposal.totalAttestors * 50 ≤ proposal.approveCount * 100 :=
        (of_decide_eq_true approved).2
      rw [length_map, ← countP_eq_length_filter]
      show proposal.totalAttestors ≤ _
      omega
  · refine ⟨(ballots key earlier).map Prod.fst, tallied.distinct, ?_, ?_⟩
    · intro attestor member
      obtain ⟨ballot, kept, rfl⟩ := mem_map.mp member
      exact ⟨ballot.2, tallied.cast ballot kept⟩
    · have split := length_eq_countP_add_countP (l := ballots key earlier) (·.2)
      rw [length_map, split]
      simp only [Bool.not_eq_true, Bool.decide_eq_false] at split ⊢
      omega

def Executed (key : ProposalKey) (s : VotingState) : Prop :=
  ∃ proposal, s.modificationProposal key = some proposal ∧ proposal.status = .executed

theorem VotingStep.applied (stepped : VotingStep event.input event.before event.after)
    (applied : Applies key event) :
    (∃ proposal ∈ event.before.modificationProposal key, proposal.status = .approved) ∧
      Executed key event.after := by
  obtain ⟨record, named, grown⟩ := applied
  cases stepped with
  | applies other proposal recorded call before approved number after =>
    rw [after] at grown
    by_cases slice : key.1 = other.1
    · simp only [slice, update_self, append_cancel_left_eq, List.cons.injEq, and_true] at grown
      obtain rfl : other = key := by
        refine Prod.ext slice.symm ?_
        rw [← number, ← named, grown]
      refine ⟨⟨proposal, before, approved⟩, ?_⟩
      rw [after]
      exact ⟨_, update_self .., rfl⟩
    · simp [update_of_ne slice] at grown
  | proposes _ _ _ _ _ _ _ _ after | votes _ _ _ _ _ _ _ _ after | resolves _ _ _ _ _ _ after =>
    rw [after] at grown
    simp at grown
  | keeps _ _ _ _ same =>
    rw [same] at grown
    simp at grown

theorem VotingStep.executed (stepped : VotingStep event.input event.before event.after)
    (executed : Executed key event.before) : Proposes key event ∨ Executed key event.after := by
  obtain ⟨before, stored, status⟩ := executed
  rcases stepped.fate key with ⟨proposes, -⟩ | same | ⟨proposal, after, kept, written, kind⟩
  · exact .inl proposes
  · exact .inr ⟨before, same.trans stored, status⟩
  · cases stored.symm.trans kept
    rcases kind with unchanged | ⟨-, pending, -⟩ | ⟨approved, -⟩
    · exact .inr ⟨after, written, unchanged.trans status⟩
    · cases status.symm.trans pending
    · cases status.symm.trans approved

theorem run_executed (run : Run (Executes execVoting) s history t) (executed : Executed key s) :
    (∃ event ∈ history, Proposes key event) ∨ Executed key t := by
  refine run.history_invariant
    (fun history t => (∃ event ∈ history, Proposes key event) ∨ Executed key t) (.inr executed) ?_
  rintro front r input u _ (⟨event, member, proposes⟩ | here) stepped
  · exact .inl ⟨event, mem_append_left _ member, proposes⟩
  · let last : VotingEvent := ⟨r, input, u⟩
    have step : VotingStep last.input last.before last.after := execVoting_step () _ stepped
    rcases step.executed here with proposes | stays
    · exact .inl ⟨last, mem_concat_self, proposes⟩
    · exact .inr stays

theorem votersDecision_of_timely (run : VotingRun earlier event.before)
    (stepped : VotingStep event.input event.before event.after) (timely : Timely earlier event) :
    VotersDecision earlier event where
  inTime key proposal after before pending stored decided := by
    rcases stepped.fate key with ⟨-, new, written, still⟩ | same | ⟨other, new, kept, written, kind⟩
    · cases stored.symm.trans written
      exact absurd still decided
    · obtain rfl := Option.mem_unique before (same.symm.trans stored)
      exact absurd pending decided
    · cases before.symm.trans kept
      cases stored.symm.trans written
      rcases kind with unchanged | ⟨call, -⟩ | ⟨approved, -⟩
      · exact absurd (unchanged.trans pending) decided
      · exact timely key.1 key.2 call proposal before pending
      · cases pending.symm.trans approved
  supported key after stored approved new := by
    rcases stepped.fate key with
      ⟨-, made, written, pending⟩ | same | ⟨proposal, made, kept, written, kind⟩
    · cases stored.symm.trans written
      cases pending.symm.trans approved
    · exact absurd approved (new after (same.symm.trans stored))
    · cases stored.symm.trans written
      rcases kind with unchanged | ⟨-, -, quorum, rfl⟩ | ⟨-, executed⟩
      · exact absurd (unchanged.symm.trans approved) (new proposal kept)
      · refine (run_tallied run key).supported kept ?_ quorum
        by_contra refused
        simp [ModificationProposal.resolve, refused] at approved
      · cases executed.symm.trans approved
  approved key applied := (stepped.applied applied).1
  once key applied before first between whole firstApplied := by
    obtain ⟨-, firstStep, rest⟩ := run.at_split whole
    have executed : Executed key first.after :=
      (VotingStep.applied (execVoting_step () _ firstStep) firstApplied).2
    rcases run_executed rest executed with proposed | ⟨proposal, stored, status⟩
    · exact proposed
    · obtain ⟨⟨other, same, approved⟩, -⟩ := stepped.applied applied
      cases stored.symm.trans same
      cases status.symm.trans approved

/-- **When the outcome of a vote is the voters' decision.** In every run: exactly if every
resolution of a pending proposal comes after its deadline, or when every registered attestor has
voted. -/
theorem votersDecision_iff (run : VotingRun history s) :
    (∀ earlier event later, history = earlier ++ event :: later → VotersDecision earlier event) ↔
      ∀ earlier event later, history = earlier ++ event :: later → Timely earlier event := by
  refine forall₄_congr fun earlier event later whole => ?_
  obtain ⟨first, ran, -⟩ := run.at_split whole
  have stepped : VotingStep event.input event.before event.after := execVoting_step () _ ran
  constructor
  · intro decision sliceId proposalId call proposal stored pending
    cases stepped with
    | resolves key resolved called before _ _ after =>
      obtain ⟨rfl, rfl⟩ := VotingCall.resolveModificationVoting.inj (call.symm.trans called)
      obtain rfl := Option.mem_unique before stored
      have now : event.after.modificationProposal key = some resolved.resolve := by
        rw [after]
        exact update_self ..
      refine decision.inTime key resolved _ before pending now ?_
      unfold ModificationProposal.resolve
      cases resolved.isApproved <;> simp
    | keeps _ settled => exact absurd pending (settled sliceId proposalId call proposal stored)
    | proposes _ _ _ _ called | votes _ _ _ _ called | applies _ _ _ called =>
      cases call.symm.trans called
  · exact votersDecision_of_timely first stepped

end Runs

/-! ### Two votes -/

def firstVote : List VotingInput :=
  [⟨1000, .registerAttestorRegistry [⟨11⟩, ⟨12⟩]⟩,
    ⟨1000, .proposeSliceModification 1 [0, 0, 0, 0, 7] ⟨5⟩⟩,
    ⟨1001, .voteOnModification 1 1 ⟨11⟩ true⟩]

def resolvedAt : VotingEvent :=
  playNext execVoting {} firstVote ⟨now, .resolveModificationVoting 1 1⟩

def resolvedHistory : List VotingEvent :=
  (play execVoting {} firstVote).1 ++ [resolvedAt now]

theorem resolvedHistory_run {now : Nat} (ok : (execVoting ⟨now, .resolveModificationVoting 1 1⟩
      (play execVoting {} firstVote).2).isOk = true) :
    VotingRun (resolvedHistory now) (resolvedAt now).after :=
  .snoc (play_executes _ _ _) (Tx.eq_ok_after ok)

/-- A resolution after the deadline. -/
theorem votersDecision_afterDeadline :
    ((resolvedAt 700000).after.modificationProposal (1, 1)).map (·.status) = some .approved ∧
      ∀ earlier event later, resolvedHistory 700000 = earlier ++ event :: later →
        VotersDecision earlier event := by
  refine ⟨rfl, (votersDecision_iff (resolvedHistory_run rfl)).mpr ?_⟩
  intro earlier event later whole sliceId proposalId call proposal stored _
  have member : event ∈ resolvedHistory 700000 := by
    rw [whole]
    exact mem_append_cons_self
  rcases mem_append.mp member with before | last
  · -- nothing is resolved before
    rcases before with _ | ⟨_, _ | ⟨_, _ | ⟨_, none⟩⟩⟩
    · cases call
    · cases call
    · cases call
    · cases none
  · rw [mem_singleton.mp last] at call stored ⊢
    cases call
    cases stored
    exact .inl (by decide)

/-- **Attestor `11` decides alone**: a second after the vote the proposal is resolved and approved,
six days before the deadline, and `12` has not voted. -/
theorem resolved_early :
    VotingRun (resolvedHistory 1002) (resolvedAt 1002).after ∧
      ((resolvedAt 1002).before.modificationProposal (1, 1)).map
        (fun proposal => (proposal.status, proposal.votingDeadline)) = some (.pending, 605800) ∧
      ((resolvedAt 1002).after.modificationProposal (1, 1)).map (·.status) = some .approved ∧
      ¬ ∀ earlier event later, resolvedHistory 1002 = earlier ++ event :: later →
        VotersDecision earlier event := by
  refine ⟨resolvedHistory_run rfl, rfl, rfl, fun decision => ?_⟩
  rcases (decision _ (resolvedAt 1002) [] rfl).inTime (1, 1) _ _ rfl rfl rfl (by decide) with
    late | all
  · exact absurd late (by decide)
  · have silent : (⟨12⟩ : Address) ∉
        (ballots (1, 1) (play execVoting {} firstVote).1).map Prod.fst := by decide +kernel
    exact silent (all ⟨12⟩ (by decide +kernel))

end SliceVoting

end EthosContracts.TtlVault
