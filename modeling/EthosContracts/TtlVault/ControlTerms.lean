/-
**What happens to the control of one vault.**

`TenureStep` speaks about all vaults at once; the results about owners, beneficiaries and signers
follow one vault.
-/

import EthosContracts.TtlVault.Transition

namespace EthosContracts.TtlVault

open Lib Function List

/-! ### The terms of a vault -/

/-- How a call may change the terms of the stored vault `v`. -/
inductive TermsStep (env : Env) (s : State) (call : Call) (id : VaultId) (v : Vault) : Terms → Prop
  | kept : TermsStep env s call id v v.terms
  | listed {addresses} (locked : v.status = .locked)
      (others : ∀ address ∈ addresses, address ∈ v.terms.beneficiaries ∨ address ≠ v.owner) :
      TermsStep env s call id v { v.terms with beneficiaries := addresses }
  | rotated {addresses} (locked : v.status = .locked) (scheduled : Scheduled s id addresses) :
      TermsStep env s call id v { v.terms with beneficiaries := addresses }
  | released {addresses} (locked : v.status = .locked) :
      TermsStep env s call id v { v.terms with status := .released, beneficiaries := addresses }
  | refunded (locked : v.status = .locked) (releases : id ∈ call.releases)
      (missed : acceptanceMissed env (s.beneficiaries.conditionalAcceptance id) = true) :
      TermsStep env s call id v { v.terms with status := .cancelled }
  | applied {caller pending} (stored : s.beneficiaries.pendingBeneficiaryUpdate id = some pending)
      (is : call = .applyBeneficiaryUpdate id caller) :
      TermsStep env s call id v { v.terms with beneficiary := pending.newBeneficiary }
  | renamed {beneficiary} (executed : executedOperation s id call = some .updateBeneficiary)
      (different : beneficiary ≠ v.owner) :
      TermsStep env s call id v { v.terms with beneficiary := beneficiary }
  | accepted {request} (stored : s.beneficiaries.pendingOwnership id = some request)
      (is : call = .acceptOwnershipTransfer id request.newOwner) :
      TermsStep env s call id v { v.terms with owner := request.newOwner }
  | transferred {newOwner} (taken : call.newOwner s id = some newOwner)
      (mode : (∃ caller, call = .transferOwnership id caller newOwner) ∨
        executedOperation s id call = some .transferOwnership) :
      TermsStep env s call id v { v.terms with owner := newOwner }
  | cancelled {caller} (is : call = .cancelVault id caller)
      (unconfigured : s.multiSig.config id = none) :
      TermsStep env s call id v { v.terms with status := .cancelled }
  | executedCancel (executed : executedOperation s id call = some .cancelVault) :
      TermsStep env s call id v { v.terms with status := .cancelled }
  | merged {targetId sources caller} (is : call = .mergeVaults targetId sources caller)
      (member : id ∈ sources) : TermsStep env s call id v { v.terms with status := .cancelled }
  | retimed {interval} (mode : call = .updateCheckInInterval id interval ∨
        executedOperation s id call = some .updateCheckInInterval) :
      TermsStep env s call id v { v.terms with checkInInterval := interval }

variable {s : State} {id : VaultId}

theorem terms_eq_none : s.tenure.terms id = none ↔ s.vaults id = none := by
  show (s.vaults id).map Vault.terms = none ↔ _
  rw [Option.map_eq_none_iff]

namespace Tenure

variable {tenure : Tenure} {id other : VaultId} {terms : Terms}

theorem set_terms_self : (tenure.set id terms).terms id = some terms := by
  show update tenure.terms id (some terms) id = some terms
  rw [update_self]

theorem set_terms_of_ne (different : other ≠ id) :
    (tenure.set id terms).terms other = tenure.terms other := by
  show update tenure.terms id (some terms) other = tenure.terms other
  rw [update_of_ne different]

theorem foldl_absorb_terms (sources : List VaultId) (tenure : Tenure) (id : VaultId) :
    (sources.foldl absorb tenure).terms id =
      if id ∈ sources then (tenure.terms id).map ({ · with status := .cancelled })
      else tenure.terms id := by
  induction sources generalizing tenure with
  | nil => rfl
  | cons source rest ih =>
    have one : (tenure.absorb source).terms id =
        if id = source then (tenure.terms id).map ({ · with status := .cancelled })
        else tenure.terms id := by
      unfold absorb
      by_cases same : id = source
      · subst same
        rw [if_pos rfl]
        cases stored : tenure.terms id with
        | none => exact stored
        | some terms => exact set_terms_self
      · rw [if_neg same]
        cases tenure.terms source with
        | none => rfl
        | some terms => exact set_terms_of_ne same
    rw [foldl_cons, ih, one]
    by_cases same : id = source
    · rw [if_pos same, if_pos (mem_cons.mpr (.inl same)), Option.map_map]
      split <;> rfl
    · rw [if_neg same]
      have mem_iff : id ∈ source :: rest ↔ id ∈ rest := by
        rw [mem_cons]
        exact ⟨fun member => member.resolve_left same, .inr⟩
      simp only [mem_iff]

end Tenure

section Terms

variable {env : Env} {s t : State} {call : Call} {id : VaultId} {v : Vault}

theorem TermsStep.of_set {target : VaultId} {u : Vault} {terms : Terms}
    (located : s.vaults target = some u) (change : TermsStep env s call target u terms)
    (found : s.vaults id = some v) :
    ∃ after, (s.tenure.set target terms).terms id = some after ∧
      TermsStep env s call id v after := by
  by_cases same : id = target
  · subst same
    cases located.symm.trans found
    exact ⟨terms, Tenure.set_terms_self, change⟩
  · rw [Tenure.set_terms_of_ne same]
    exact ⟨v.terms, terms_of_found found, .kept⟩

theorem TermsStep.of_opened {terms : Terms} (counted : s.Counted) (found : s.vaults id = some v) :
    ∃ after, (s.tenure.opened terms).terms id = some after ∧ TermsStep env s call id v after := by
  have old : id ≠ s.vaultCount + 1 := by
    intro new
    rw [new, counted _ (Nat.lt_succ_self _)] at found
    cases found
  refine ⟨v.terms, ?_, .kept⟩
  exact (Tenure.set_terms_of_ne old).trans (terms_of_found found)

theorem TenureStep.terms {tenure : Tenure} (step : TenureStep env s call tenure)
    (counted : s.Counted) (found : s.vaults id = some v) :
    ∃ after, tenure.terms id = some after ∧ TermsStep env s call id v after := by
  cases step with
  | kept | initiated | withdrawn | proposed | scheduled =>
    exact ⟨v.terms, terms_of_found found, .kept⟩
  | created | copied => exact TermsStep.of_opened counted found
  | rotated each =>
    rcases each id with same | ⟨u, addresses, located, locked, scheduled, after⟩
    · exact ⟨v.terms, same.trans (terms_of_found found), .kept⟩
    · cases located.symm.trans found
      exact ⟨_, after, .rotated locked scheduled⟩
  | released located locked | paid located locked =>
    exact TermsStep.of_set located (.released locked) found
  | refunded located locked releases missed =>
    exact TermsStep.of_set located (.refunded locked releases missed) found
  | listed located locked others => exact TermsStep.of_set located (.listed locked others) found
  | applied located stored => exact TermsStep.of_set located (.applied stored rfl) found
  | renamed located executed different =>
    exact TermsStep.of_set located (.renamed executed different) found
  | accepted located locked stored => exact TermsStep.of_set located (.accepted stored rfl) found
  | transferred located taken mode =>
    exact TermsStep.of_set located (.transferred taken (mode.imp_left And.right)) found
  | cancelled located locked unconfigured =>
    exact TermsStep.of_set located (.cancelled rfl unconfigured) found
  | executedCancel located executed => exact TermsStep.of_set located (.executedCancel executed) found
  | merged locked =>
    rename_i targetId sources caller
    rw [Tenure.foldl_absorb_terms, terms_of_found found]
    by_cases member : id ∈ sources
    · rw [if_pos member]
      exact ⟨_, rfl, .merged rfl member⟩
    · rw [if_neg member]
      exact ⟨_, rfl, .kept⟩
  | retimed located mode => exact TermsStep.of_set located (.retimed (mode.imp_left And.right)) found

theorem TermsStep.owner {terms : Terms} (change : TermsStep env s call id v terms) :
    terms.owner = v.owner ∨ call.newOwner s id = some terms.owner := by
  cases change with
  | accepted stored is =>
    rw [is]
    exact .inr (if_pos rfl)
  | transferred taken => exact .inr taken
  | _ => exact .inl rfl

/-- Every call does one of these things to every vault. -/
theorem Controlled.terms (controlled : Controlled env call s t) (counted : s.Counted)
    (found : s.vaults id = some v) :
    ∃ w, t.vaults id = some w ∧ TermsStep env s call id v w.terms := by
  obtain ⟨after, present, change⟩ := controlled.tenure.terms counted found
  obtain ⟨w, written, rfl⟩ := terms_eq_some.mp present
  exact ⟨w, written, change⟩

/-- The owner stays unless the call names another one. -/
theorem Controlled.owner (controlled : Controlled env call s t) (counted : s.Counted)
    (found : s.vaults id = some v)
    (stays : ∀ newOwner, call.newOwner s id = some newOwner → v.owner = newOwner) :
    ∃ w, t.vaults id = some w ∧ w.owner = v.owner := by
  obtain ⟨w, present, change⟩ := controlled.terms counted found
  exact ⟨w, present, change.owner.elim (fun same => same) fun taken => (stays _ taken).symm⟩

end Terms

/-! ### The terms of a new vault -/

/-- The terms under which a call opens a vault. -/
structure Opens (s : State) (id : VaultId) (terms : Terms) : Prop where
  next : id = s.vaultCount + 1
  locked : terms.status = .locked
  different : terms.owner ≠ terms.beneficiary
  /-- A copied list names the owner only if it did so in the vault it is copied from. -/
  listed : terms.owner ∈ terms.beneficiaries → ∃ other v, s.vaults other = some v ∧
    v.status = .locked ∧ v.owner = terms.owner ∧ v.owner ∈ v.terms.beneficiaries

section Opens

variable {env : Env} {s t : State} {call : Call} {id : VaultId}

theorem absent_after_set {target : VaultId} {u : Vault} {terms after : Terms}
    (located : s.vaults target = some u) (absent : s.vaults id = none) :
    (s.tenure.set target terms).terms id ≠ some after := by
  have different : id ≠ target := by
    intro same
    rw [same, located] at absent
    cases absent
  rw [Tenure.set_terms_of_ne different, terms_eq_none.mpr absent]
  exact nofun

theorem TenureStep.opens {tenure : Tenure} {after : Terms} (step : TenureStep env s call tenure)
    (absent : s.vaults id = none) (present : tenure.terms id = some after) : Opens s id after := by
  have before : s.tenure.terms id = none := terms_eq_none.mpr absent
  -- the new vault is the only one that a step of opening writes
  have opened : ∀ terms, (s.tenure.opened terms).terms id = some after →
      id = s.vaultCount + 1 ∧ after = terms := by
    intro terms stored
    by_cases new : id = s.vaultCount + 1
    · rw [new] at stored
      exact ⟨new, (Option.mem_unique Tenure.set_terms_self stored).symm⟩
    · cases before.symm.trans ((Tenure.set_terms_of_ne new).symm.trans stored)
  cases step with
  | created different =>
    obtain ⟨new, rfl⟩ := opened _ present
    exact ⟨new, rfl, different, fun listed => absurd listed not_mem_nil⟩
  | copied copies locked different listed =>
    obtain ⟨new, rfl⟩ := opened _ present
    exact ⟨new, locked, different, listed⟩
  | rotated each =>
    rcases each id with same | ⟨u, addresses, located, -⟩
    · cases before.symm.trans (same.symm.trans present)
    · cases absent.symm.trans located
  | merged =>
    rw [Tenure.foldl_absorb_terms, before] at present
    split at present <;> cases present
  | released located | paid located | refunded located | listed located | applied located
  | renamed located | accepted located | transferred located | cancelled located
  | executedCancel located | retimed located =>
    exact absurd present (absent_after_set located absent)
  | kept | initiated | withdrawn | proposed | scheduled => cases before.symm.trans present

theorem Controlled.opens {w : Vault} (controlled : Controlled env call s t)
    (absent : s.vaults id = none) (present : t.vaults id = some w) : Opens s id w.terms :=
  controlled.tenure.opens absent (terms_of_found present)

end Opens

section Requests

variable {env : Env} {s t : State} {call : Call} {id : VaultId}

theorem foldl_absorb_requests (sources : List VaultId) (tenure : Tenure) :
    (sources.foldl Tenure.absorb tenure).pendingOwnership = tenure.pendingOwnership ∧
      (sources.foldl Tenure.absorb tenure).pendingBeneficiaryUpdate =
        tenure.pendingBeneficiaryUpdate ∧
      (sources.foldl Tenure.absorb tenure).rotationSchedule = tenure.rotationSchedule := by
  induction sources generalizing tenure with
  | nil => exact ⟨rfl, rfl, rfl⟩
  | cons source rest ih =>
    obtain ⟨ownership, update, schedule⟩ := ih (tenure.absorb source)
    rw [foldl_cons, ownership, update, schedule]
    unfold Tenure.absorb
    cases tenure.terms source with
    | none => exact ⟨rfl, rfl, rfl⟩
    | some terms => exact ⟨rfl, rfl, rfl⟩

variable {tenure : Tenure} {request : OwnershipTransferRequest} {pending : PendingBeneficiaryUpdate}

theorem TenureStep.ownership
    (step : TenureStep env s call tenure) (stored : tenure.pendingOwnership id = some request) :
    s.beneficiaries.pendingOwnership id = some request ∨ ∃ v, s.vaults id = some v ∧
        call = .record (.initiateOwnershipTransfer id v.owner request.newOwner) := by
  cases step with
  | accepted | withdrawn =>
    rcases stored_of_update stored with old | ⟨-, ⟨⟩⟩
    exact .inl old
  | initiated found owner =>
    rename_i target caller newOwner v
    rcases stored_of_update stored with old | ⟨rfl, ⟨⟩⟩
    · exact .inl old
    · rw [owner]
      exact .inr ⟨v, found, rfl⟩
  | merged => exact .inl ((congrFun (foldl_absorb_requests _ _).1 id).symm.trans stored)
  | _ => exact .inl stored

theorem Controlled.ownership (controlled : Controlled env call s t)
    (stored : t.beneficiaries.pendingOwnership id = some request) :
    s.beneficiaries.pendingOwnership id = some request ∨ ∃ v, s.vaults id = some v ∧
        call = .record (.initiateOwnershipTransfer id v.owner request.newOwner) :=
  controlled.tenure.ownership stored

theorem TenureStep.update (step : TenureStep env s call tenure)
    (stored : tenure.pendingBeneficiaryUpdate id = some pending) :
    s.beneficiaries.pendingBeneficiaryUpdate id = some pending ∨
      ∃ v, s.vaults id = some v ∧ pending.newBeneficiary ≠ v.owner ∧ call.newOwner s id = none := by
  cases step with
  | applied =>
    rcases stored_of_update stored with old | ⟨-, ⟨⟩⟩
    exact .inl old
  | proposed found different stays =>
    rename_i target v new
    rcases stored_of_update stored with old | ⟨rfl, ⟨⟩⟩
    · exact .inl old
    · exact .inr ⟨v, found, different, stays⟩
  | merged => exact .inl ((congrFun (foldl_absorb_requests _ _).2.1 id).symm.trans stored)
  | _ => exact .inl stored

theorem Controlled.update (controlled : Controlled env call s t)
    (stored : t.beneficiaries.pendingBeneficiaryUpdate id = some pending) :
    s.beneficiaries.pendingBeneficiaryUpdate id = some pending ∨
      ∃ v, s.vaults id = some v ∧ pending.newBeneficiary ≠ v.owner ∧ call.newOwner s id = none :=
  controlled.tenure.update stored

theorem TenureStep.schedule {schedule : List BeneficiaryRotationEntry}
    {rotation : BeneficiaryRotationEntry} (step : TenureStep env s call tenure)
    (stored : tenure.rotationSchedule id = some schedule) (member : rotation ∈ schedule) :
    Scheduled s id (rotation.newBeneficiaries.map (·.address)) ∨
      ∃ v, s.vaults id = some v ∧ v.owner ∉ rotation.newBeneficiaries.map (·.address) ∧
        call.newOwner s id = none := by
  cases step with
  | scheduled found others stays =>
    rename_i target v new
    rcases stored_of_update stored with old | ⟨rfl, ⟨⟩⟩
    · exact .inl ⟨schedule, old, rotation, member, rfl⟩
    · rcases mem_append.mp member with old | last
      · cases earlier : s.beneficiaries.rotationSchedule id with
        | none =>
          rw [earlier] at old
          cases old
        | some schedule =>
          rw [earlier] at old
          exact .inl ⟨schedule, earlier, rotation, old, rfl⟩
      · rw [mem_singleton.mp last]
        exact .inr ⟨v, found, others, stays⟩
  | merged =>
    have same := (congrFun (foldl_absorb_requests _ _).2.2 id).symm.trans stored
    exact .inl ⟨schedule, same, rotation, member, rfl⟩
  | _ => exact .inl ⟨schedule, stored, rotation, member, rfl⟩

theorem Controlled.schedule {addresses : List Address} (controlled : Controlled env call s t)
    (scheduled : Scheduled t id addresses) :
    Scheduled s id addresses ∨
      ∃ v, s.vaults id = some v ∧ v.owner ∉ addresses ∧ call.newOwner s id = none := by
  obtain ⟨schedule, stored, rotation, member, rfl⟩ := scheduled
  exact controlled.tenure.schedule stored member

end Requests

end EthosContracts.TtlVault
