/-
**Owners: the transfer of a vault, and its beneficiaries.**
-/

import EthosContracts.TtlVault.ControlTerms

namespace EthosContracts.TtlVault

open Lib List

/-! ### A request dies with the owner who made it -/

/-- The address asked for the stored transfer, by an event since which it has been stored. -/
def InitiatedBy (id : VaultId) (earlier : History) (request : OwnershipTransferRequest)
    (address : Address) : Prop :=
  ∃ front event back, earlier = front ++ event :: back ∧
    event.input.call = .record (.initiateOwnershipTransfer id address request.newOwner) ∧
    ∀ later ∈ event :: back, later.after.beneficiaries.pendingOwnership id = some request

/-- An ownership transfer is accepted only if it was asked for by the owner that the vault has just
before. -/
def DiesWithOwner (history : History) : Prop :=
  ∀ earlier event later, history = earlier ++ event :: later →
    ∀ id newOwner, event.input.call = .acceptOwnershipTransfer id newOwner →
      ∃ v request, event.before.vaults id = some v ∧
        event.before.beneficiaries.pendingOwnership id = some request ∧
        InitiatedBy id earlier request v.owner

/-- The condition on one step: a call that changes the owner of a vault accepts a request, or finds
none. -/
def Unrequested (s : State) (call : Call) : Prop :=
  ∀ id newOwner, call.newOwner s id = some newOwner →
    (∃ address, call = .acceptOwnershipTransfer id address) ∨
      s.beneficiaries.pendingOwnership id = none ∨ ∀ v ∈ s.vaults id, v.owner = newOwner

variable {id : VaultId} {event : VaultEvent}

theorem InitiatedBy.snoc {earlier : History} {request : OwnershipTransferRequest}
    {address : Address}
    (initiated : InitiatedBy id earlier request address)
    (kept : event.after.beneficiaries.pendingOwnership id = some request) :
    InitiatedBy id (earlier ++ [event]) request address := by
  obtain ⟨front, first, back, rfl, called, stored⟩ := initiated
  refine ⟨front, first, back ++ [event], concat_eq_split.mpr (.inr ⟨back, rfl, rfl⟩), called, ?_⟩
  rw [← cons_append]
  exact forall_mem_concat.mpr ⟨stored, kept⟩

theorem acceptOwnershipTransfer_clears (env : Env) (s : State) (id : VaultId) (newOwner : Address) :
    (acceptOwnershipTransfer env id newOwner).wp s fun _ t =>
      (∃ v, s.vaults id = some v) ∧
        (∃ request, s.beneficiaries.pendingOwnership id = some request) ∧
        t.beneficiaries.pendingOwnership id = none := by
  simp only [acceptOwnershipTransfer, wp_rules, setPendingOwnership]
  intro _ _ request stored _ _ _ v found _
  refine (moveOwnerIndex_spec s id v.owner newOwner).mono fun _ t _ => ?_
  exact ⟨⟨v, found⟩, ⟨request, stored⟩, Function.update_self ..⟩

section Requests

variable {host : Host} {start s : State} {history : History}

theorem run_initiated (run : ContractRun host start history s) (regular : start.Regular)
    (none : ∀ id, start.beneficiaries.pendingOwnership id = none)
    (unrequested : ∀ event ∈ history, Unrequested event.before event.input.call) :
    ∀ id request, s.beneficiaries.pendingOwnership id = some request →
      ∃ v, s.vaults id = some v ∧ InitiatedBy id history request v.owner := by
  refine run.history_invariant (fun history s =>
    (∀ event ∈ history, Unrequested event.before event.input.call) →
      ∀ id request, s.beneficiaries.pendingOwnership id = some request →
        ∃ v, s.vaults id = some v ∧ InitiatedBy id history request v.owner)
    (fun _ id request stored => ?_) (fun earlier u input t before ih stepped => ?_) unrequested
  · rw [none id] at stored
    cases stored
  · intro conditions id request stored
    have regularBefore := run_regular before regular
    have controlled := step_controlled stepped
    rcases controlled.ownership stored with old | ⟨v, found, called⟩
    · -- the request was there, so the owner has not changed
      obtain ⟨v, found, initiated⟩ :=
        ih (forall_mem_concat.mp conditions).1 id request old
      obtain ⟨w, present, owner⟩ := controlled.owner regularBefore.counted found
        fun newOwner taken => by
        have condition := conditions ⟨u, input, t⟩ mem_concat_self
        rcases condition id newOwner taken with ⟨address, called⟩ | empty | same
        · have ran := stepped.2
          rw [called] at ran
          have cleared := (acceptOwnershipTransfer_clears input.env u id address () t ran).2.2
          cases cleared.symm.trans stored
        · cases empty.symm.trans old
        · exact same v found
      refine ⟨w, present, ?_⟩
      rw [owner]
      exact initiated.snoc stored
    · obtain ⟨w, present, owner⟩ := controlled.owner regularBefore.counted found
        fun newOwner taken => by
        rw [called] at taken
        cases taken
      refine ⟨w, present, earlier, _, [], rfl, ?_, fun later member => ?_⟩
      · rw [owner]
        exact called
      · rw [mem_singleton.mp member]
        exact stored

end Requests

/-- **A pending transfer dies with the owner who started it**, in every run whose steps meet the
condition. -/
theorem diesWithOwner_of_unrequested {host : Host} {xlmToken admin : Address}
    {ledger : Ledger Address Address} {history : History} {s : State}
    (run : ContractRun host (initialState xlmToken admin ledger) history s)
    (unrequested : ∀ event ∈ history, Unrequested event.before event.input.call) :
    DiesWithOwner history := by
  intro earlier event later whole id newOwner called
  obtain ⟨middle, before, rest⟩ := run.split earlier (event :: later) whole
  obtain ⟨rfl, stepped, -⟩ := rest.uncons
  have ran := stepped.2
  rw [called] at ran
  obtain ⟨⟨v, found⟩, ⟨request, stored⟩, -⟩ :=
    acceptOwnershipTransfer_clears event.input.env event.before id newOwner () event.after ran
  have conditions : ∀ event ∈ earlier, Unrequested event.before event.input.call := by
    intro event member
    refine unrequested event ?_
    rw [whole]
    exact mem_append_left _ member
  obtain ⟨w, present, initiated⟩ := run_initiated before (initialState_regular xlmToken admin ledger)
    (fun _ => rfl) conditions id request stored
  exact ⟨w, request, present, stored, initiated⟩

def awaitingTransfer : Scenario :=
  [(1, ⟨3⟩, .createVault ⟨3⟩ ⟨4⟩ 1000000 none),
    (2, ⟨3⟩, .record (.initiateOwnershipTransfer 1 ⟨3⟩ ⟨5⟩))]

def acceptance : VaultEvent :=
  nextEvent fundedState (plainInputs awaitingTransfer)
    ⟨plainEnv 86402 [⟨5⟩], .acceptOwnershipTransfer 1 ⟨5⟩⟩

theorem acceptance_run : PlainRun
      ((played awaitingTransfer).1 ++ [acceptance]) acceptance.after := by
  exact .snoc (plainInputs_run awaitingTransfer) ⟨rfl, Tx.eq_ok_after (by decide +kernel)⟩

theorem awaitingTransfer_newOwner (member : event ∈ (played awaitingTransfer).1) (id : VaultId) :
    event.input.call.newOwner event.before id = none := by
  obtain ⟨entry, listed, is⟩ := plainInputs_event member
  simp only [awaitingTransfer, mem_cons, not_mem_nil, or_false] at listed
  rw [is]
  rcases listed with rfl | rfl <;> rfl

theorem acceptance_newOwner {newOwner : Address}
    (taken : acceptance.input.call.newOwner acceptance.before id = some newOwner) :
    id = 1 ∧ newOwner = ⟨5⟩ := by
  have taken : (if 1 = id then some ⟨5⟩ else none) = some newOwner := taken
  split at taken
  · rename_i same
    exact ⟨same.symm, (Option.some.inj taken).symm⟩
  · cases taken

/-- The two steps are taken, and the property holds of the run. -/
theorem diesWithOwner_acceptance :
    (acceptance.after.vaults 1).map (·.owner) = some ⟨5⟩ ∧
      DiesWithOwner ((played awaitingTransfer).1 ++ [acceptance]) := by
  refine ⟨by decide +kernel, diesWithOwner_of_unrequested acceptance_run fun event member => ?_⟩
  intro id newOwner taken
  rcases mem_append.mp member with earlier | last
  · rw [awaitingTransfer_newOwner earlier] at taken
    cases taken
  · rw [mem_singleton.mp last] at taken ⊢
    obtain ⟨rfl, -⟩ := acceptance_newOwner taken
    exact .inl ⟨⟨5⟩, rfl⟩

def transferBetween : Scenario :=
  [(1, ⟨3⟩, .createVault ⟨3⟩ ⟨4⟩ 1000000 none),
    (2, ⟨3⟩, .record (.initiateOwnershipTransfer 1 ⟨3⟩ ⟨5⟩)),
    (3, ⟨3⟩, .transferOwnership 1 ⟨3⟩ ⟨6⟩)]

def lateAcceptance : VaultEvent :=
  nextEvent fundedState (plainInputs transferBetween)
    ⟨plainEnv 86402 [⟨5⟩], .acceptOwnershipTransfer 1 ⟨5⟩⟩

/-- The new owner, who asked for nothing, loses the vault to the address of the old request. -/
theorem lateAcceptance_not_diesWithOwner :
    PlainRun
        ((played transferBetween).1 ++ [lateAcceptance])
        lateAcceptance.after ∧
      (lateAcceptance.before.vaults 1).map (·.owner) = some ⟨6⟩ ∧
      (lateAcceptance.after.vaults 1).map (·.owner) = some ⟨5⟩ ∧
      ¬ DiesWithOwner ((played transferBetween).1 ++ [lateAcceptance]) := by
  refine ⟨.snoc (plainInputs_run transferBetween) ⟨rfl, Tx.eq_ok_after (by decide +kernel)⟩, rfl,
    by decide +kernel, fun dies => ?_⟩
  obtain ⟨v, request, found, -, initiated⟩ := dies _ lateAcceptance [] rfl 1 ⟨5⟩ rfl
  obtain ⟨front, event, back, whole, called, -⟩ := initiated
  have member : event ∈ (played transferBetween).1 := by
    rw [whole]
    exact mem_append_cons_self
  cases found
  -- only the first owner has asked for a transfer
  rcases member with _ | ⟨_, _ | ⟨_, _ | ⟨_, none⟩⟩⟩
  · cases called
  · cases called
  · cases called
  · cases none

/-! ### Owners and beneficiaries -/

/-- The owner of a locked vault is not one of its beneficiaries. -/
def State.OwnersApart (s : State) : Prop :=
  ∀ id v, s.vaults id = some v → v.status = .locked →
    v.owner ≠ v.beneficiary ∧ v.owner ∉ v.beneficiaries.map (·.address)

/-- The address is named neither in the terms of the vault nor in what will change them. -/
structure Unnamed (s : State) (id : VaultId) (terms : Terms) (address : Address) : Prop where
  beneficiary : address ≠ terms.beneficiary
  listed : address ∉ terms.beneficiaries
  pending : ∀ update ∈ s.beneficiaries.pendingBeneficiaryUpdate id, address ≠ update.newBeneficiary
  scheduled : ∀ addresses, Scheduled s id addresses → address ∉ addresses

/-- What keeps the owners apart: no owner of a locked vault is named, and nothing is in store for a
vault that does not exist. -/
structure State.Separated (s : State) : Prop where
  owners : ∀ id v, s.vaults id = some v → v.status = .locked → Unnamed s id v.terms v.owner
  updates : ∀ id, s.vaults id = none → s.beneficiaries.pendingBeneficiaryUpdate id = none
  schedules : ∀ id addresses, s.vaults id = none → ¬ Scheduled s id addresses

/-- The condition on one step: a new owner of a locked vault is not named. -/
def NewOwnerUnnamed (s : State) (call : Call) : Prop :=
  ∀ id newOwner, call.newOwner s id = some newOwner →
    ∀ v ∈ s.vaults id, v.status = .locked → Unnamed s id v.terms newOwner

section Separated

variable {env : Env} {call : Call} {s t : State}

variable {id : VaultId} {v : Vault} {terms : Terms}

theorem TermsStep.locked_before
    (change : TermsStep env s call id v terms) (locked : terms.status = .locked) :
    v.status = .locked := by
  cases change with
  | released | refunded | cancelled | executedCancel | merged => cases locked
  | listed before | rotated before => exact before
  | _ => exact locked

theorem TermsStep.unnamed
    (change : TermsStep env s call id v terms) (locked : terms.status = .locked)
    (unnamed : Unnamed s id v.terms terms.owner) :
    terms.owner ≠ terms.beneficiary ∧ terms.owner ∉ terms.beneficiaries := by
  cases change with
  | listed _ others =>
    refine ⟨unnamed.beneficiary, fun member => ?_⟩
    rcases others _ member with old | ne
    · exact unnamed.listed old
    · exact ne rfl
  | rotated _ scheduled => exact ⟨unnamed.beneficiary, unnamed.scheduled _ scheduled⟩
  | applied stored => exact ⟨unnamed.pending _ stored, unnamed.listed⟩
  | renamed _ ne => exact ⟨ne.symm, unnamed.listed⟩
  | released | refunded | cancelled | executedCancel | merged => cases locked
  | kept | accepted | transferred | retimed => exact ⟨unnamed.beneficiary, unnamed.listed⟩

section

variable (controlled : Controlled env call s t)
include controlled

variable {id : VaultId} {w : Vault}

theorem Controlled.no_update (separated : s.Separated) (absent : s.vaults id = none) :
    t.beneficiaries.pendingBeneficiaryUpdate id = none := by
  cases stored : t.beneficiaries.pendingBeneficiaryUpdate id with
  | none => rfl
  | some update =>
    rcases controlled.update stored with old | ⟨v, there, -⟩
    · cases (separated.updates id absent).symm.trans old
    · cases absent.symm.trans there

theorem Controlled.no_schedule {addresses : List Address}
    (separated : s.Separated) (absent : s.vaults id = none) :
    ¬ Scheduled t id addresses := by
  intro scheduled
  rcases controlled.schedule scheduled with old | ⟨v, there, -⟩
  · exact separated.schedules id addresses absent old
  · cases absent.symm.trans there

theorem Controlled.unnamed_opened
    (separated : s.Separated) (absent : s.vaults id = none) (present : t.vaults id = some w) :
    Unnamed t id w.terms w.owner := by
  obtain ⟨-, -, ne, listed⟩ := controlled.opens absent present
  refine ⟨ne, fun member => ?_, fun update stored => ?_, fun addresses scheduled => ?_⟩
  · obtain ⟨other, v, source, lockedSource, owner, inside⟩ := listed member
    exact (separated.owners other v source lockedSource).listed inside
  · cases (controlled.no_update separated absent).symm.trans stored
  · exact absurd scheduled (controlled.no_schedule separated absent)

theorem Controlled.unnamed_found {v : Vault}
    (counted : s.Counted) (separated : s.Separated) (condition : NewOwnerUnnamed s call)
    (found : s.vaults id = some v) (present : t.vaults id = some w) (locked : w.status = .locked) :
    Unnamed t id w.terms w.owner := by
  obtain ⟨u, written, change⟩ := controlled.terms counted found
  cases present.symm.trans written
  have lockedBefore := change.locked_before locked
  -- the owner after the step was not named before it
  have unnamed : Unnamed s id v.terms w.owner := by
    rcases change.owner with same | taken
    · have before := separated.owners id v found lockedBefore
      rwa [show w.owner = v.owner from same]
    · exact condition id w.owner taken v found lockedBefore
  -- and a request that the step adds leaves the owner alone
  have owner_of_stays : call.newOwner s id = none → w.owner = v.owner := by
    intro stays
    rcases change.owner with same | taken
    · exact same
    · cases stays.symm.trans taken
  obtain ⟨ne, unlisted⟩ := change.unnamed locked unnamed
  refine ⟨ne, unlisted, fun update stored => ?_, fun addresses scheduled => ?_⟩
  · rcases controlled.update stored with old | ⟨u, there, other, stays⟩
    · exact unnamed.pending update old
    · cases found.symm.trans there
      rw [owner_of_stays stays]
      exact other.symm
  · rcases controlled.schedule scheduled with old | ⟨u, there, other, stays⟩
    · exact unnamed.scheduled addresses old
    · cases found.symm.trans there
      rw [owner_of_stays stays]
      exact other

theorem Controlled.separated (counted : s.Counted)
    (separated : s.Separated) (condition : NewOwnerUnnamed s call) : t.Separated := by
  -- a vault that is absent after the step was absent before it
  have absent_before : ∀ id, t.vaults id = none → s.vaults id = none := by
    intro id absent
    cases found : s.vaults id with
    | none => rfl
    | some v =>
      obtain ⟨w, present, -⟩ := controlled.terms counted found
      cases absent.symm.trans present
  refine ⟨fun id w present locked => ?_, fun id absent => ?_, fun id addresses absent => ?_⟩
  · cases found : s.vaults id with
    | none => exact controlled.unnamed_opened separated found present
    | some v => exact controlled.unnamed_found counted separated condition found present locked
  · exact controlled.no_update separated (absent_before id absent)
  · exact controlled.no_schedule separated (absent_before id absent)

end

theorem initialState_separated (xlmToken admin : Address) (ledger : Ledger Address Address) :
    (initialState xlmToken admin ledger).Separated where
  owners _ _ found := by cases found
  updates _ _ := rfl
  schedules _ _ _ scheduled := by
    obtain ⟨_, stored, -⟩ := scheduled
    cases stored

end Separated

/-- **Owners and beneficiaries stay different** in every run whose steps meet the condition. -/
theorem ownersApart_of_unnamed {host : Host} {xlmToken admin : Address}
    {ledger : Ledger Address Address} {history : History} {s : State}
    (run : ContractRun host (initialState xlmToken admin ledger) history s)
    (unnamed : ∀ event ∈ history, NewOwnerUnnamed event.before event.input.call) :
    s.OwnersApart := by
  have kept : s.Separated := by
    refine regular_invariant run (initialState_regular ..) State.Separated
      (fun u input => NewOwnerUnnamed u input.call) (initialState_separated ..)
      (fun u input t regular separated condition stepped => ?_) unnamed
    exact (step_controlled stepped).separated regular.counted separated condition
  intro id v found locked
  have named := kept.owners id v found locked
  exact ⟨named.beneficiary, named.listed⟩

/-- The owner after the two steps of a transfer is none of the beneficiaries. -/
theorem ownersApart_acceptance :
    (acceptance.after.vaults 1).map (fun v => (v.owner, v.beneficiary)) = some (⟨5⟩, ⟨4⟩) ∧
      acceptance.after.OwnersApart := by
  refine ⟨by decide +kernel, ownersApart_of_unnamed acceptance_run fun event member => ?_⟩
  intro id newOwner taken
  rcases mem_append.mp member with earlier | last
  · rw [awaitingTransfer_newOwner earlier] at taken
    cases taken
  · rw [mem_singleton.mp last] at taken ⊢
    obtain ⟨rfl, rfl⟩ := acceptance_newOwner taken
    intro v found _
    cases found
    refine ⟨by decide, not_mem_nil, nofun, fun addresses scheduled => ?_⟩
    obtain ⟨_, stored, -⟩ := scheduled
    cases stored

def crossedRequests : Scenario :=
  [(1, ⟨3⟩, .createVault ⟨3⟩ ⟨4⟩ 1000000 none),
    (2, ⟨3⟩, .record (.initiateOwnershipTransfer 1 ⟨3⟩ ⟨5⟩)),
    (3, ⟨3⟩, .record (.updateBeneficiary 1 ⟨3⟩ ⟨5⟩)),
    (86403, ⟨3⟩, .applyBeneficiaryUpdate 1 ⟨3⟩),
    (86404, ⟨5⟩, .acceptOwnershipTransfer 1 ⟨5⟩)]

/-- The beneficiary accepts, and owns a locked vault that is to be released to them. -/
theorem crossedRequests_not_ownersApart :
    PlainRun (played crossedRequests).1 (played crossedRequests).2 ∧
      ((played crossedRequests).2.vaults 1).map
        (fun v => (v.owner, v.beneficiary, v.status)) = some (⟨5⟩, ⟨5⟩, .locked) ∧
      ¬ (played crossedRequests).2.OwnersApart := by
  have terms : ((played crossedRequests).2.vaults 1).map
      (fun v => (v.owner, v.beneficiary, v.status)) = some (⟨5⟩, ⟨5⟩, .locked) := by decide +kernel
  refine ⟨plainInputs_run crossedRequests, terms, fun apart => ?_⟩
  obtain ⟨v, found, fields⟩ := Option.map_eq_some_iff.mp terms
  obtain ⟨owner, rest⟩ := Prod.mk.inj fields
  obtain ⟨beneficiary, locked⟩ := Prod.mk.inj rest
  refine (apart 1 v found locked).1 ?_
  rw [owner, beneficiary]

end EthosContracts.TtlVault
