/-
**The books about the proposals of a vault** (`list_open_proposals`).

A proposal is made, approved, rejected, vetoed and executed, and a removed signer may end it.
-/

import Mathlib.Data.List.Dedup
import EthosContracts.TtlVault.Signers

namespace EthosContracts.TtlVault

open Lib Function List

/-- Pending or approved. -/
def MultiSigProposal.isOpen (proposal : MultiSigProposal) : Prop :=
  proposal.status = .pending ∨ proposal.status = .approved

/-- The open proposals are listed once each, and the pending ones are short of the threshold. -/
structure Booked (m : MultiSigState) (id : VaultId) : Prop where
  once : (m.openProposals id).Nodup
  listed : ∀ n, n ∈ m.openProposals id ↔ ∃ proposal, m.proposal id n = some proposal ∧ proposal.isOpen
  short : ∀ n proposal config, m.proposal id n = some proposal → proposal.status = .pending →
    m.config id = some config → proposal.approvals.length < config.threshold

/-- The calls about the proposals of a vault. -/
inductive ProposalCall (id : VaultId) : Call → Prop
  | propose {caller operation payload addressPayload} :
      ProposalCall id (.record (.proposeMultisig id caller operation payload addressPayload))
  | approve {n caller} : ProposalCall id (.record (.approveMultisig id n caller))
  | reject {n caller} : ProposalCall id (.record (.rejectMultisig id n caller))
  | veto {n caller} : ProposalCall id (.record (.vetoProposal id n caller))
  | remove {caller signer} : ProposalCall id (.record (.removeMultisigSigner id caller signer))
  | execute {n caller} : ProposalCall id (.executeMultisig id n caller)

/-- **A removal rejects what is out of reach**: the approvals of the others, with the owner and the
signers that are left, do not make up the threshold. -/
def RejectsRightly (id : VaultId) (event : VaultEvent) : Prop :=
  ∀ caller signer, event.input.call = .record (.removeMultisigSigner id caller signer) →
    ∀ n proposal v config, event.before.multiSig.proposal id n = some proposal →
      proposal.status = .pending → event.after.vaults id = some v →
      event.after.multiSig.config id = some config →
      ((event.after.multiSig.proposal id n).map (·.status) = some .rejected ↔
        (proposal.approvals.filter (· ≠ signer) ++ v.owner :: config.signers).dedup.length <
          config.threshold)

/-- The books are right after every call, and the removal of a signer rejects those pending
proposals that the others cannot bring to the threshold. -/
def KeepsBooks (id : VaultId) (history : History) : Prop :=
  ∀ event ∈ history, Booked event.after.multiSig id ∧ RejectsRightly id event

def SparesBooks (s : State) (id : VaultId) : Call → Prop
  | .record (.proposeMultisig ..) => ∀ config, s.multiSig.config id = some config → 1 < config.threshold
  | .record (.vetoProposal _ n _) =>
    ∀ proposal, s.multiSig.proposal id n = some proposal → ¬proposal.isOpen
  | .record (.removeMultisigSigner ..) =>
    ∀ n proposal, s.multiSig.proposal id n = some proposal → proposal.status ≠ .pending
  | _ => True

/-- The proposals are numbered from one to the counter. -/
def Numbered (m : MultiSigState) (id : VaultId) : Prop :=
  ∀ n proposal, m.proposal id n = some proposal → 1 ≤ n ∧ n ≤ m.proposalCount id

section Books

variable {m : MultiSigState} {id : VaultId} {n : Nat} {proposal new : MultiSigProposal}

@[simp] theorem put_proposal : (m.put id n new).proposal id = update (m.proposal id) n (some new) :=
  update_self ..

theorem Numbered.put (numbered : Numbered m id) (stored : m.proposal id n = some proposal) :
    Numbered (m.put id n new) id := by
  intro k other found
  by_cases same : k = n
  · exact same ▸ numbered n proposal stored
  · rw [put_proposal, update_of_ne same] at found
    exact numbered k other found

variable (booked : Booked m id)
include booked

theorem Booked.change_iff {after : MultiSigState}
    (proposals : after.proposal id = update (m.proposal id) n (some new))
    (config : after.config = m.config) (once : (after.openProposals id).Nodup)
    (others : ∀ k, k ≠ n → (k ∈ after.openProposals id ↔ k ∈ m.openProposals id)) :
    Booked after id ↔ (n ∈ after.openProposals id ↔ new.isOpen) ∧ (new.status = .pending →
      ∀ config, m.config id = some config → new.approvals.length < config.threshold) := by
  constructor
  · intro exact
    have here := exact.listed n
    simp only [proposals, update_self, Option.some.injEq, exists_eq_left'] at here
    exact ⟨here, fun pending given => config ▸ exact.short n new given (by simp [proposals]) pending⟩
  · rintro ⟨here, short⟩
    refine ⟨once, fun k => ?_, fun k other given found => ?_⟩
    · by_cases same : k = n
      · simp [same, here, proposals]
      · simp [others k same, proposals, same, booked.listed]
    · rw [config]
      by_cases same : k = n
      · rw [proposals, same, update_self] at found
        exact fun pending => Option.some.inj found ▸ short (Option.some.inj found ▸ pending) given
      · rw [proposals, update_of_ne same] at found
        exact booked.short k other given found

theorem Booked.put_close (closed : ¬new.isOpen) : Booked ((m.put id n new).close id n) id := by
  have list : ((m.put id n new).close id n).openProposals id =
      (m.openProposals id).filter (· ≠ n) := update_self ..
  refine Iff.mpr (booked.change_iff put_proposal rfl (list ▸ booked.once.filter _) fun k other => ?_)
    ⟨?_, fun pending => absurd (.inl pending) closed⟩
  · simp [list, other]
  · simp [list, closed]

theorem Booked.reduce_iff (numbered : Numbered m id) (signer : Address) (config : MultiSigConfig) :
    Booked { m with
      config := update m.config id (some config)
      proposal := update m.proposal id fun n =>
        if 1 ≤ n ∧ n ≤ m.proposalCount id then
          (m.proposal id n).map (·.withoutSigner signer config.threshold)
        else m.proposal id n } id ↔
      ∀ n proposal, m.proposal id n = some proposal → proposal.status ≠ .pending := by
  constructor
  · intro after n proposal stored pending
    have inside := numbered n proposal stored
    have listed := (after.listed n).mp ((booked.listed n).mpr ⟨proposal, stored, .inl pending⟩)
    simp only [update_self, if_pos inside, stored, Option.map_some, Option.some.injEq,
      exists_eq_left', MultiSigProposal.withoutSigner, pending, true_and] at listed
    split_ifs at listed with few
    · simp [MultiSigProposal.isOpen] at listed
    · refine few ((length_filter_le ..).trans_lt (after.short n proposal config ?_ pending
        (update_self ..)))
      simp only [update_self, if_pos inside, stored, Option.map_some,
        MultiSigProposal.withoutSigner, pending, true_and, if_neg few]
  · intro none
    have same : (fun n => if 1 ≤ n ∧ n ≤ m.proposalCount id then
        (m.proposal id n).map (·.withoutSigner signer config.threshold) else m.proposal id n) =
        m.proposal id := by
      funext n
      split_ifs
      · cases stored : m.proposal id n with
        | none => rfl
        | some proposal => simp [MultiSigProposal.withoutSigner, none n proposal stored]
      · rfl
    rw [same, update_eq_self]
    exact ⟨booked.once, booked.listed, fun n proposal _ stored pending =>
      absurd pending (none n proposal stored)⟩

end Books

section Runs

variable {id : VaultId} {s t : State} {host : Host}

theorem exec_booked (env : Env) {call : Call} (allowed : ProposalCall id call)
    (numbered : Numbered s.multiSig id) : (exec env call).wp s fun _ t => Numbered t.multiSig id ∧
      (Booked s.multiSig id → (Booked t.multiSig id ↔ SparesBooks s id call)) := by
  cases allowed with
  | propose =>
    simp only [exec.eq_def, execRecord.eq_def, proposeMultisig, setProposal, wp_rules]
    intros
    refine ⟨fun k other found => ?_, fun booked => ?_⟩
    · simp only [update_self]
      by_cases here : k = s.multiSig.proposalCount id + 1
      · omega
      · simp only [update_self, update_of_ne here] at found
        exact (numbered k other found).imp_right (·.trans (Nat.le_succ _))
    · have free : s.multiSig.proposalCount id + 1 ∉ s.multiSig.openProposals id := by
        intro listed
        obtain ⟨other, stored, -⟩ := (booked.listed _).mp listed
        exact (numbered _ other stored).2.not_gt (Nat.lt_succ_self _)
      refine Iff.trans (booked.change_iff (update_self ..) rfl ?_ fun k other => ?_) ?_
      · simpa [nodup_append_comm, nodup_cons] using ⟨free, booked.once⟩
      · simp [other]
      · simp [MultiSigProposal.isOpen, SparesBooks]
  | approve =>
    simp only [exec.eq_def, execRecord.eq_def, approveMultisig, loadAsSigner, loadProposal,
      setProposal, wp_rules]
    intro _ config given _ _ _ proposal stored pending _ _
    refine ⟨numbered.put stored, fun booked =>
      (booked.change_iff put_proposal rfl booked.once fun _ _ => .rfl).trans ?_⟩
    refine iff_of_true ⟨iff_of_true ((booked.listed _).mpr ⟨proposal, stored, .inl pending⟩) ?_,
      fun still other same => ?_⟩ trivial
    · simp only [MultiSigProposal.isOpen]
      split_ifs <;> simp
    · cases given.symm.trans same
      split_ifs at still with few
      exact not_le.mp few
  | reject =>
    simp only [exec.eq_def, execRecord.eq_def, rejectMultisig, loadProposal, setProposal,
      closeProposal, wp_rules]
    intro _ _ _ _ proposal stored _
    exact ⟨numbered.put stored, fun booked =>
      iff_of_true (booked.put_close (by simp [MultiSigProposal.isOpen])) trivial⟩
  | veto =>
    simp only [exec.eq_def, execRecord.eq_def, vetoProposal, loadAsSigner, loadProposal,
      setProposal, wp_rules]
    intro _ _ _ _ _ _ proposal stored _
    refine ⟨numbered.put stored, fun booked =>
      (booked.change_iff put_proposal rfl booked.once fun _ _ => .rfl).trans ?_⟩
    simp [MultiSigState.put, booked.listed, MultiSigProposal.isOpen, SparesBooks, stored]
  | remove =>
    simp only [exec.eq_def, execRecord.eq_def, removeMultisigSigner, setMultiSigConfig, wp_rules]
    intros
    refine ⟨fun k other found => ?_, fun booked => booked.reduce_iff numbered _ _⟩
    simp only [update_self] at found
    split_ifs at found with inside
    · exact inside
    · exact numbered k other found
  | execute =>
    simp only [exec.eq_def, executeMultisig, loadProposal, setProposal, closeProposal, wp_rules]
    rintro ⟨_, signed⟩ v found rfl proposal stored _ _
    refine (performOperation_outcome env s id v.owner found signed stored _).mono ?_
    rintro _ t ⟨-, -, proposals, -⟩
    simp only [proposals]
    exact ⟨numbered.put stored, fun booked =>
      iff_of_true (booked.put_close (by simp [MultiSigProposal.isOpen])) trivial⟩

/-- **When the books are exact.** In every run of these calls from a state without proposals. -/
theorem keepsBooks_iff {start : State} {history : History} (run : ContractRun host start history s)
    (blank : ∀ n, start.multiSig.proposal id n = none) (empty : start.multiSig.openProposals id = [])
    (calls : ∀ event ∈ history, ProposalCall id event.input.call) :
    KeepsBooks id history ↔ ∀ event ∈ history, SparesBooks event.before id event.input.call := by
  suffices Numbered s.multiSig id ∧ (KeepsBooks id history → Booked s.multiSig id) ∧
      (KeepsBooks id history ↔ ∀ event ∈ history, SparesBooks event.before id event.input.call) from
    this.2.2
  induction run with
  | nil =>
    exact ⟨by simp [Numbered, blank], fun _ => ⟨by simp [empty], by simp [empty, blank],
      by simp [blank]⟩, iff_of_true (forall_mem_nil _) (forall_mem_nil _)⟩
  | @snoc history s t input run stepped ih =>
    rw [forall_mem_concat] at calls
    obtain ⟨numbered, booked, same⟩ := ih calls.1
    obtain ⟨later, kept⟩ := exec_booked input.env calls.2 numbered _ _ stepped.2
    have split : KeepsBooks id (history ++ [⟨s, input, t⟩]) ↔ KeepsBooks id history ∧
        Booked t.multiSig id ∧ RejectsRightly id ⟨s, input, t⟩ := forall_mem_concat
    refine ⟨later, fun all => (split.mp all).2.1, ?_⟩
    rw [split, forall_mem_concat, ← same]
    refine and_congr_right fun before => ?_
    rw [← kept (booked before)]
    refine ⟨And.left, fun after =>
      ⟨after, fun caller signer is n proposal v config stored pending => ?_⟩⟩
    have spared := (kept (booked before)).mp after
    dsimp only at is stored
    rw [is] at spared
    exact absurd pending (spared n proposal stored)

end Runs

def twoOfThree : State :=
  (played [(1, ⟨3⟩, .createVault ⟨3⟩ ⟨4⟩ 1000000 none),
    (2, ⟨3⟩, .record (.configureMultisig 1 ⟨3⟩ [⟨5⟩, ⟨6⟩] 2))]).2

def proposedCancel : VaultEvent :=
  nextEvent twoOfThree [] ⟨plainEnv 3 [⟨3⟩], .record (.proposeMultisig 1 ⟨3⟩ .cancelVault [] none)⟩

def approvedCancel : VaultEvent :=
  nextEvent proposedCancel.after [] ⟨plainEnv 4 [⟨5⟩], .record (.approveMultisig 1 1 ⟨5⟩)⟩

def lostSigner : VaultEvent :=
  nextEvent proposedCancel.after [] ⟨plainEnv 4 [⟨3⟩], .record (.removeMultisigSigner 1 ⟨3⟩ ⟨6⟩)⟩

theorem keepsBooks_approvedCancel : KeepsBooks 1 [proposedCancel, approvedCancel] := by
  have run : ContractRun plainHost twoOfThree [proposedCancel, approvedCancel] approvedCancel.after :=
    .snoc (.snoc .nil ⟨rfl, rfl⟩) ⟨rfl, rfl⟩
  refine (keepsBooks_iff run (fun _ => rfl) rfl ?_).mpr ?_
  · exact forall_mem_cons.mpr ⟨.propose, forall_mem_singleton.mpr .approve⟩
  · refine forall_mem_cons.mpr ⟨?_, forall_mem_singleton.mpr trivial⟩
    rintro config ⟨⟩
    decide

/-- **A proposal that two signers could approve is rejected**, and stays in the list. -/
theorem reachable_rejected : ContractRun plainHost twoOfThree [proposedCancel, lostSigner]
      lostSigner.after ∧
    lostSigner.after.multiSig.openProposals 1 = [1] ∧
    (lostSigner.after.multiSig.proposal 1 1).map (·.status) = some .rejected ∧
    lostSigner.after.multiSig.config 1 = some ⟨[⟨5⟩], 2⟩ ∧
    ¬KeepsBooks 1 [proposedCancel, lostSigner] := by
  refine ⟨.snoc (.snoc .nil ⟨rfl, rfl⟩) ⟨rfl, rfl⟩, rfl, rfl, rfl, fun books => ?_⟩
  have booked := (books lostSigner (mem_cons_of_mem _ mem_cons_self)).1
  obtain ⟨proposal, ⟨⟩, pending | approved⟩ := (booked.listed 1).mp mem_cons_self
  · cases pending
  · cases approved

end EthosContracts.TtlVault
