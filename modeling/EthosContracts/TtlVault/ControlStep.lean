/-
**How a call may change the control of vaults.**

`Controlled env call s t` says once what a successful call may have done to the four parts of
`Control`; the results about ownership, beneficiaries, indexes, signers and passkeys are derived
from it, and from nothing else about the calls.

* `Controlled.of_unchanged`, `Controlled.of_tenure`, `Controlled.of_keys`, `Controlled.of_multiSig`
  — the rules by which it is established, for a call that changes at most one part.
-/

import EthosContracts.TtlVault.Control

namespace EthosContracts.TtlVault

open Lib Function

variable {w v : Vault} {id : VaultId}

/-! ### Operations on the tenure -/

namespace Tenure

def set (tenure : Tenure) (id : VaultId) (terms : Terms) : Tenure :=
  { tenure with terms := update tenure.terms id (some terms) }

def opened (tenure : Tenure) (terms : Terms) : Tenure :=
  { tenure.set (tenure.vaultCount + 1) terms with
    vaultCount := tenure.vaultCount + 1
    ownerVaults := Index.add tenure.ownerVaults terms.owner (tenure.vaultCount + 1)
    beneficiaryVaults :=
      Index.add tenure.beneficiaryVaults terms.beneficiary (tenure.vaultCount + 1) }

def rename (tenure : Tenure) (id : VaultId) (terms : Terms) (beneficiary : Address) : Tenure :=
  { tenure.set id { terms with beneficiary := beneficiary } with
    beneficiaryVaults := Index.move tenure.beneficiaryVaults terms.beneficiary beneficiary id }

def handOver (tenure : Tenure) (id : VaultId) (terms : Terms) (newOwner : Address) : Tenure :=
  { tenure.set id { terms with owner := newOwner } with
    ownerVaults := Index.move tenure.ownerVaults terms.owner newOwner id }

def cancel (tenure : Tenure) (id : VaultId) (terms : Terms) : Tenure :=
  { tenure.set id { terms with status := .cancelled } with
    ownerVaults := Index.remove tenure.ownerVaults terms.owner id
    beneficiaryVaults := Index.remove tenure.beneficiaryVaults terms.beneficiary id }

def mark (tenure : Tenure) (terms : Terms) (entry : Option VaultId) : Tenure :=
  { tenure with
    vaultDuplicate := fun o b i =>
      if o = terms.owner ∧ b = terms.beneficiary ∧ i = terms.checkInInterval then entry
      else tenure.vaultDuplicate o b i }

/-- What a merge does to one of its sources. -/
def absorb (tenure : Tenure) (id : VaultId) : Tenure :=
  match tenure.terms id with
  | some terms => tenure.cancel id terms
  | none => tenure

end Tenure

/-! ### What the calls name -/

def Call.releases : Call → List VaultId
  | .triggerRelease id => [id]
  | .triggerReleaseManual id => [id]
  | .panicRelease id _ => [id]
  | _ => []

/-- The calls that open a vault with the terms of another one, or of a released parent. -/
def Call.copies : Call → Bool
  | .cloneVault .. => true
  | .cloneVaultWithOverrides .. => true
  | .createVaultFromInheritance .. => true
  | _ => false

def Call.newOwner (s : State) (id : VaultId) : Call → Option Address
  | .acceptOwnershipTransfer vaultId newOwner => if vaultId = id then some newOwner else none
  | .transferOwnership vaultId _ newOwner => if vaultId = id then some newOwner else none
  | .executeMultisig vaultId proposalId _ =>
    if vaultId = id then
      (s.multiSig.proposal id proposalId).bind fun proposal =>
        if proposal.operation = .transferOwnership then proposal.addressPayload else none
    else none
  | _ => none

/-- The addresses of a rotation that the vault has scheduled. -/
def Scheduled (s : State) (id : VaultId) (addresses : List Address) : Prop :=
  ∃ schedule ∈ s.beneficiaries.rotationSchedule id, ∃ rotation ∈ schedule,
    addresses = rotation.newBeneficiaries.map (·.address)

/-! ### Steps of the tenure -/

/-- **What a call can do to the tenure**, and who may do it. -/
inductive TenureStep (env : Env) (s : State) : Call → Tenure → Prop
  | kept {call} : TenureStep env s call s.tenure
  | created {owner beneficiary interval token} (ne : owner ≠ beneficiary)
      (fresh : s.index.vaultDuplicate owner beneficiary interval = none) :
      TenureStep env s (.createVault owner beneficiary interval token)
        ((s.tenure.opened ⟨owner, beneficiary, interval, .locked, []⟩).mark
          ⟨owner, beneficiary, interval, .locked, []⟩ (some (s.vaultCount + 1)))
  | copied {call terms} (copies : call.copies = true) (locked : terms.status = .locked)
      (ne : terms.owner ≠ terms.beneficiary)
      (listed : terms.owner ∈ terms.beneficiaries → ∃ id v, s.vaults id = some v ∧
        v.status = .locked ∧ v.owner = terms.owner ∧ v.owner ∈ v.terms.beneficiaries) :
      TenureStep env s call (s.tenure.opened terms)
  | rotated {call} {terms : VaultId → Option Terms}
      (each : ∀ id, terms id = s.tenure.terms id ∨ ∃ v addresses, s.vaults id = some v ∧
        v.status = .locked ∧ Scheduled s id addresses ∧
        terms id = some { v.terms with beneficiaries := addresses }) :
      TenureStep env s call { s.tenure with terms := terms }
  /- A release to vesting or to a revealed beneficiary leaves the duplicate key. -/
  | released {call id v addresses} (found : s.vaults id = some v) (locked : v.status = .locked)
      (waits : (id ∈ call.releases ∧ hasVesting s id (rotatedVault env id s v) = true) ∨
        ∃ proof claim, call = .revealBeneficiary id proof claim) :
      TenureStep env s call
        (s.tenure.set id { v.terms with status := .released, beneficiaries := addresses })
  | paid {call id v addresses} (found : s.vaults id = some v) (locked : v.status = .locked)
      (releases : id ∈ call.releases) :
      TenureStep env s call
        ((s.tenure.set id { v.terms with status := .released, beneficiaries := addresses }).mark
          v.terms none)
  /- The refund of a missed acceptance leaves the indexes and the duplicate key. -/
  | refunded {call id v} (found : s.vaults id = some v) (locked : v.status = .locked)
      (releases : id ∈ call.releases)
      (missed : acceptanceMissed env (s.beneficiaries.conditionalAcceptance id) = true) :
      TenureStep env s call (s.tenure.set id { v.terms with status := .cancelled })
  | listed {call id v addresses} (found : s.vaults id = some v) (locked : v.status = .locked)
      (others : ∀ address ∈ addresses, address ∈ v.terms.beneficiaries ∨ address ≠ v.owner) :
      TenureStep env s call (s.tenure.set id { v.terms with beneficiaries := addresses })
  | applied {id caller v pending} (found : s.vaults id = some v)
      (stored : s.beneficiaries.pendingBeneficiaryUpdate id = some pending) :
      TenureStep env s (.applyBeneficiaryUpdate id caller)
        { s.tenure.rename id v.terms pending.newBeneficiary with
          pendingBeneficiaryUpdate :=
            update s.beneficiaries.pendingBeneficiaryUpdate id none }
  | renamed {call id v beneficiary} (found : s.vaults id = some v)
      (executed : executedOperation s id call = some .updateBeneficiary)
      (ne : beneficiary ≠ v.owner) :
      TenureStep env s call (s.tenure.rename id v.terms beneficiary)
  | accepted {id v request} (found : s.vaults id = some v) (locked : v.status = .locked)
      (stored : s.beneficiaries.pendingOwnership id = some request) :
      TenureStep env s (.acceptOwnershipTransfer id request.newOwner)
        { s.tenure.handOver id v.terms request.newOwner with
          pendingOwnership := update s.beneficiaries.pendingOwnership id none }
  | transferred {call id v newOwner} (found : s.vaults id = some v)
      (taken : call.newOwner s id = some newOwner)
      (mode : (v.status = .locked ∧ ∃ caller, call = .transferOwnership id caller newOwner) ∨
        executedOperation s id call = some .transferOwnership) :
      TenureStep env s call (s.tenure.handOver id v.terms newOwner)
  | cancelled {id caller v} (found : s.vaults id = some v) (locked : v.status = .locked)
      (unconfigured : s.multiSig.config id = none) :
      TenureStep env s (.cancelVault id caller) ((s.tenure.cancel id v.terms).mark v.terms none)
  | executedCancel {call id v} (found : s.vaults id = some v)
      (executed : executedOperation s id call = some .cancelVault) :
      TenureStep env s call (s.tenure.cancel id v.terms)
  | merged {targetId sources caller}
      (locked : ∀ id ∈ sources, ∃ v, s.vaults id = some v ∧ v.status = .locked) :
      TenureStep env s (.mergeVaults targetId sources caller) (sources.foldl Tenure.absorb s.tenure)
  | retimed {call id v interval} (found : s.vaults id = some v)
      (mode : (v.status = .locked ∧ call = .updateCheckInInterval id interval) ∨
        executedOperation s id call = some .updateCheckInInterval) :
      TenureStep env s call (s.tenure.set id { v.terms with checkInInterval := interval })
  | initiated {id caller newOwner v} (found : s.vaults id = some v) (owner : caller = v.owner) :
      TenureStep env s (.record (.initiateOwnershipTransfer id caller newOwner))
        { s.tenure with
          pendingOwnership := update s.beneficiaries.pendingOwnership id
            (some ⟨newOwner, env.now, env.now + 86400, env.now + 604800⟩) }
  | withdrawn {call id} :
      TenureStep env s call
        { s.tenure with
          pendingOwnership := update s.beneficiaries.pendingOwnership id none }
  | proposed {call id v pending} (found : s.vaults id = some v)
      (ne : pending.newBeneficiary ≠ v.owner) (stays : call.newOwner s id = none) :
      TenureStep env s call
        { s.tenure with
          pendingBeneficiaryUpdate :=
            update s.beneficiaries.pendingBeneficiaryUpdate id (some pending) }
  | scheduled {call id v rotation} (found : s.vaults id = some v)
      (others : v.owner ∉ rotation.newBeneficiaries.map (·.address))
      (stays : call.newOwner s id = none) :
      TenureStep env s call
        { s.tenure with
          rotationSchedule := update s.beneficiaries.rotationSchedule id
            (some ((s.beneficiaries.rotationSchedule id).getD [] ++ [rotation])) }

/-! ### Steps of the signers and proposals -/

namespace MultiSigState

def put (multiSig : MultiSigState) (id : VaultId) (proposalId : Nat)
    (proposal : MultiSigProposal) : MultiSigState :=
  { multiSig with
    proposal := update multiSig.proposal id
      (update (multiSig.proposal id) proposalId (some proposal)) }

def close (multiSig : MultiSigState) (id : VaultId) (proposalId : Nat) : MultiSigState :=
  { multiSig with
    openProposals := update multiSig.openProposals id
      ((multiSig.openProposals id).filter (· ≠ proposalId)) }

end MultiSigState

/-- The address may approve proposals of the vault. -/
def MaySign (s : State) (id : VaultId) (config : MultiSigConfig) (address : Address) : Prop :=
  ∃ v, s.vaults id = some v ∧ (address = v.owner ∨ address ∈ config.signers)

/-- **What a call can do to signers and proposals.** -/
inductive MultiSigStep (env : Env) (s : State) : Call → MultiSigState → Prop
  | kept {call} : MultiSigStep env s call s.multiSig
  | configured {call id config} :
      MultiSigStep env s call { s.multiSig with config := update s.multiSig.config id config }
  | reduced {call id config signer threshold} :
      MultiSigStep env s call
        { s.multiSig with
          config := update s.multiSig.config id config
          proposal := update s.multiSig.proposal id fun proposalId =>
            if 1 ≤ proposalId ∧ proposalId ≤ s.multiSig.proposalCount id then
              (s.multiSig.proposal id proposalId).map (·.withoutSigner signer threshold)
            else s.multiSig.proposal id proposalId }
  | proposed {id caller operation payload addressPayload config} (signed : caller ∈ env.signers)
      (stored : s.multiSig.config id = some config) (maySign : MaySign s id config caller) :
      MultiSigStep env s (.record (.proposeMultisig id caller operation payload addressPayload))
        { s.multiSig.put id (s.multiSig.proposalCount id + 1)
            ⟨s.multiSig.proposalCount id + 1, operation, [caller], .pending, env.now + 604800, id,
              payload, addressPayload, env.now⟩ with
          proposalCount := update s.multiSig.proposalCount id (s.multiSig.proposalCount id + 1)
          openProposals := update s.multiSig.openProposals id
            (s.multiSig.openProposals id ++ [s.multiSig.proposalCount id + 1]) }
  | approved {id proposalId caller config proposal} (signed : caller ∈ env.signers)
      (stored : s.multiSig.config id = some config) (maySign : MaySign s id config caller)
      (open' : s.multiSig.proposal id proposalId = some proposal)
      (pending : proposal.status = .pending) (new : caller ∉ proposal.approvals) :
      MultiSigStep env s (.record (.approveMultisig id proposalId caller))
        (s.multiSig.put id proposalId
          { proposal with
            approvals := proposal.approvals ++ [caller]
            status := if config.threshold ≤ (proposal.approvals ++ [caller]).length then .approved
              else .pending })
  | rejected {call id proposalId proposal}
      (open' : s.multiSig.proposal id proposalId = some proposal)
      (pending : proposal.status = .pending) :
      MultiSigStep env s call
        ((s.multiSig.put id proposalId { proposal with status := .rejected }).close id proposalId)
  | vetoed {call id proposalId proposal} (open' : s.multiSig.proposal id proposalId = some proposal)
      (unfinished : proposal.status ≠ .executed) :
      MultiSigStep env s call (s.multiSig.put id proposalId { proposal with status := .vetoed })
  | executed {id proposalId caller proposal}
      (stored : s.multiSig.proposal id proposalId = some proposal)
      (approved : proposal.status = .approved) (inTime : env.now ≤ proposal.expiresAt) :
      MultiSigStep env s (.executeMultisig id proposalId caller)
        ((s.multiSig.put id proposalId { proposal with status := .executed }).close id proposalId)

/-! ### Steps of the passkeys -/

/-- **What a call can do to the passkeys of a vault.** -/
inductive KeyChange (env : Env) (s : State) : Call → VaultId → VaultKeys → Prop
  | opened {call passkeys} (new : passkeys = [] ∨ passkeys = (s.keys (s.vaultCount + 1)).passkeys) :
      KeyChange env s call (s.vaultCount + 1)
        { s.keys (s.vaultCount + 1) with passkeys := passkeys, primary := none }
  | added {id caller passkeyHash v} (found : s.vaults id = some v)
      (signed : v.owner ∈ env.signers) :
      KeyChange env s (.record (.addPasskey id caller passkeyHash)) id
        { s.keys id with passkeys := (s.keys id).passkeys ++ [passkeyHash] }
  | removed {id caller passkeyHash v} (found : s.vaults id = some v)
      (signed : v.owner ∈ env.signers) :
      KeyChange env s (.record (.removePasskey id caller passkeyHash)) id
        { s.keys id with passkeys := (s.keys id).passkeys.filter (· ≠ passkeyHash) }
  | rotated {id caller old new v} (found : s.vaults id = some v) (signed : v.owner ∈ env.signers) :
      KeyChange env s (.rotatePasskey id caller old new) id { s.keys id with primary := some new }
  /- Reports of compromised passkeys, their withdrawal, and new expiry times. -/
  | assessed {call id v compromised} {expiry : Hash → Option Nat} (found : s.vaults id = some v)
      (signed : v.owner ∈ env.signers) :
      KeyChange env s call id { s.keys id with compromised := compromised, expiry := expiry }
  | escrowed {id caller contact passkeyHash v} (found : s.vaults id = some v)
      (signed : v.owner ∈ env.signers) :
      KeyChange env s (.record (.escrowPasskey id caller passkeyHash contact)) id
        { s.keys id with
          escrow := update (s.keys id).escrow passkeyHash (some ⟨contact, env.now⟩) }
  | returned {id caller passkeyHash record} (stored : (s.keys id).escrow passkeyHash = some record)
      (contact : caller = record.recoveryContact) (signed : caller ∈ env.signers) :
      KeyChange env s (.record (.releaseEscrowPasskey id caller passkeyHash)) id
        { s.keys id with escrow := update (s.keys id).escrow passkeyHash none }
  | reclaimed {id caller passkeyHash v} (found : s.vaults id = some v)
      (signed : v.owner ∈ env.signers) :
      KeyChange env s (.record (.cancelPasskeyEscrow id caller passkeyHash)) id
        { s.keys id with escrow := update (s.keys id).escrow passkeyHash none }
  | initiated {id passkeyHash code contacts required} (pos : required ≠ 0) :
      KeyChange env s (.record (.initiatePasskeyRecovery id passkeyHash code contacts required)) id
        { s.keys id with
          request := some ⟨passkeyHash, env.now, code, [], required⟩, contacts := some contacts }
  | supported {id caller contacts request} (named : (s.keys id).contacts = some contacts)
      (contact : caller ∈ contacts) (signed : caller ∈ env.signers)
      (stored : (s.keys id).request = some request) (new : caller ∉ request.approvedContacts) :
      KeyChange env s (.record (.approvePasskeyRecovery id caller)) id
        { s.keys id with
          request := some { request with approvedContacts := request.approvedContacts ++ [caller] } }
  | granted {id caller contacts request} (named : (s.keys id).contacts = some contacts)
      (contact : caller ∈ contacts) (signed : caller ∈ env.signers)
      (stored : (s.keys id).request = some request) (new : caller ∉ request.approvedContacts)
      (enough : request.requiredContacts ≤ (request.approvedContacts ++ [caller]).length) :
      KeyChange env s (.record (.approvePasskeyRecovery id caller)) id
        { s.keys id with
          passkeys := (s.keys id).passkeys ++ [request.newPasskeyHash], request := none }
  | coded {id code v} (found : s.vaults id = some v) (signed : v.owner ∈ env.signers) :
      KeyChange env s (.generateRecoveryCode id code) id
        { s.keys id with codeHash := some (env.sha256 code) }
  | recovered {id code proof v} (found : s.vaults id = some v)
      (stored : (s.keys id).codeHash = some (env.sha256 code)) :
      KeyChange env s (.recoverWithCode id code proof) id
        { s.keys id with passkeys := [proof], primary := some proof, codeHash := none }

/-- A call changes the passkeys of at most one vault. -/
def KeysStep (env : Env) (s : State) (call : Call) (keys : VaultId → VaultKeys) : Prop :=
  keys = s.keys ∨ ∃ id new, KeyChange env s call id new ∧ keys = update s.keys id new

variable {env : Env} {s t : State} {call : Call} {base : Tenure}

theorem KeysStep.kept : KeysStep env s call s.keys := .inl rfl

theorem KeysStep.at {keys : VaultId → VaultKeys} (step : KeysStep env s call keys) (id : VaultId) :
    keys id = s.keys id ∨ KeyChange env s call id (keys id) := by
  rcases step with rfl | ⟨target, new, change, rfl⟩
  · exact .inl rfl
  · by_cases same : id = target
    · rw [same, update_self]
      exact .inr change
    · exact .inl (update_of_ne same new s.keys)

/-! ### Steps of the hibernation entries -/

/-- **What a call can do to the hibernation entries.** -/
inductive HibernationStep (env : Env) (s : State) :
    Call → (VaultId → Option HibernationEntry) → Prop
  | kept {call : Call} : HibernationStep env s call s.checkIns.hibernation
  | entered {id caller duration v} (found : s.vaults id = some v) :
      HibernationStep env s (.record (.enterHibernation id caller duration))
        (update s.checkIns.hibernation id (some ⟨env.now, duration⟩))
  | exited {id caller} :
      HibernationStep env s (.exitHibernation id caller) (update s.checkIns.hibernation id none)

/-! ### Controlled steps -/

/-- **What a call can do to the control of vaults**, part by part. -/
structure Controlled (env : Env) (call : Call) (s t : State) : Prop where
  tenure : TenureStep env s call t.tenure
  multiSig : MultiSigStep env s call t.multiSig
  keys : KeysStep env s call t.keys
  hibernation : HibernationStep env s call t.checkIns.hibernation
  /-- A vault is opened by its owner. -/
  opened : ∀ id w, s.vaults id = none → t.vaults id = some w → w.owner ∈ env.signers

theorem terms_eq_some {terms : Terms} :
    s.tenure.terms id = some terms ↔ ∃ v, s.vaults id = some v ∧ v.terms = terms := by
  show (s.vaults id).map Vault.terms = some terms ↔ _
  rw [Option.map_eq_some_iff]

theorem terms_of_found (found : s.vaults id = some v) : s.tenure.terms id = some v.terms :=
  terms_eq_some.mpr ⟨v, found, rfl⟩

theorem tenure_save (vaults : t.vaults = update s.vaults id (some w))
    (rest : { t.tenure with terms := s.tenure.terms } = base) : t.tenure = base.set id w.terms := by
  subst rest
  have terms : t.tenure.terms = update s.tenure.terms id (some w.terms) := by
    funext other
    show (t.vaults other).map Vault.terms = _
    rw [vaults]
    by_cases same : other = id
    · rw [same, update_self, update_self, Option.map_some]
    · rw [update_of_ne same, update_of_ne same]
      rfl
  rw [Tenure.set, ← terms]

theorem tenure_kept (found : s.vaults id = some v)
    (vaults : t.vaults = update s.vaults id (some w)) (terms : w.terms = v.terms)
    (rest : { t.tenure with terms := s.tenure.terms } = s.tenure) : t.tenure = s.tenure := by
  rw [tenure_save vaults rest, Tenure.set, terms, ← terms_of_found found, update_eq_self]

theorem keys_at {keys : VaultKeys} (here : t.keys id = keys)
    (others : ∀ other, other ≠ id → t.keys other = s.keys other) :
    t.keys = update s.keys id keys := by
  funext other
  by_cases same : other = id
  · rw [same, update_self, here]
  · rw [update_of_ne same, others other same]

/-! ### Calls that change the tenure only -/

/-- A call that changes neither passkeys nor hibernation and opens no vault. -/
structure TenureOnly (env : Env) (call : Call) (s t : State) : Prop where
  tenure : TenureStep env s call t.tenure
  keys : t.keys = s.keys
  hibernation : t.checkIns.hibernation = s.checkIns.hibernation
  stored : ∀ id, (t.vaults id).isSome = (s.vaults id).isSome

theorem isSome_save (found : s.vaults id = some v)
    (vaults : t.vaults = update s.vaults id (some w)) (other : VaultId) :
    (t.vaults other).isSome = (s.vaults other).isSome := by
  rw [vaults]
  by_cases same : other = id
  · rw [same, update_self, found, Option.isSome_some, Option.isSome_some]
  · rw [update_of_ne same]

theorem TenureOnly.of_save
    (found : s.vaults id = some v) (vaults : t.vaults = update s.vaults id (some w))
    (passkey : w.passkeyHash = v.passkeyHash) (keyBooks : t.keyBooks = s.keyBooks)
    (hibernation : t.checkIns.hibernation = s.checkIns.hibernation)
    (rest : { t.tenure with terms := s.tenure.terms } = base)
    (step : TenureStep env s call (base.set id w.terms)) : TenureOnly env call s t where
  tenure := tenure_save vaults rest ▸ step
  keys := by
    refine keys_eq keyBooks fun other => ?_
    rw [vaults]
    by_cases same : other = id
    · rw [same, update_self, found, Option.bind_some, Option.bind_some, passkey]
    · rw [update_of_ne same]
  hibernation := hibernation
  stored := isSome_save found vaults

theorem TenureOnly.of_kept (found : s.vaults id = some v)
    (vaults : t.vaults = update s.vaults id (some w)) (terms : w.terms = v.terms)
    (passkey : w.passkeyHash = v.passkeyHash) (keyBooks : t.keyBooks = s.keyBooks)
    (hibernation : t.checkIns.hibernation = s.checkIns.hibernation)
    (rest : { t.tenure with terms := s.tenure.terms } = s.tenure) : TenureOnly env call s t := by
  refine .of_save found vaults passkey keyBooks hibernation rest ?_
  rw [← tenure_save vaults rest, tenure_kept found vaults terms rest]
  exact .kept

namespace Controlled

variable {env : Env} {call : Call} {s t : State}

theorem opened_of_isSome (stored : ∀ id, (t.vaults id).isSome = (s.vaults id).isSome) :
    ∀ id w, s.vaults id = none → t.vaults id = some w → w.owner ∈ env.signers := by
  intro id w absent present
  have same := stored id
  rw [absent, present] at same
  cases same

theorem of_unchanged (unchanged : Unchanged s t) : Controlled env call s t where
  tenure := unchanged.tenure ▸ .kept
  multiSig := unchanged.multiSig ▸ .kept
  keys := unchanged.keys ▸ .kept
  hibernation := unchanged.hibernation ▸ .kept
  opened := opened_of_isSome unchanged.isSome

theorem of_tenureOnly (only : TenureOnly env call s t) (multiSig : t.multiSig = s.multiSig) :
    Controlled env call s t where
  tenure := only.tenure
  multiSig := multiSig ▸ .kept
  keys := only.keys ▸ .kept
  hibernation := only.hibernation ▸ .kept
  opened := opened_of_isSome only.stored

theorem of_tenure {id : VaultId} {v w : Vault} {base : Tenure} (found : s.vaults id = some v)
    (vaults : t.vaults = update s.vaults id (some w))
    (passkey : w.passkeyHash = v.passkeyHash) (multiSig : t.multiSig = s.multiSig)
    (keyBooks : t.keyBooks = s.keyBooks)
    (hibernation : t.checkIns.hibernation = s.checkIns.hibernation)
    (rest : { t.tenure with terms := s.tenure.terms } = base)
    (step : TenureStep env s call (base.set id w.terms)) : Controlled env call s t :=
  of_tenureOnly (.of_save found vaults passkey keyBooks hibernation rest step) multiSig

theorem of_open {w : Vault} {base : Tenure} {passkeys : VaultId → List PasskeyHash}
    (vaults : t.vaults = update s.vaults (s.vaultCount + 1) (some w))
    (passkey : w.passkeyHash = none) (signed : w.owner ∈ env.signers)
    (multiSig : t.multiSig = s.multiSig)
    (keyBooks : t.keyBooks = { s.keyBooks with vaultPasskeys := passkeys })
    (new : passkeys = s.checkIns.vaultPasskeys ∨
      passkeys = update s.checkIns.vaultPasskeys (s.vaultCount + 1) [])
    (hibernation : t.checkIns.hibernation = s.checkIns.hibernation)
    (rest : { t.tenure with terms := s.tenure.terms } = base)
    (step : TenureStep env s call (base.set (s.vaultCount + 1) w.terms)) :
    Controlled env call s t where
  tenure := tenure_save vaults rest ▸ step
  multiSig := multiSig ▸ .kept
  keys := by
    simp only [State.keyBooks, KeyBooks.mk.injEq] at keyBooks
    obtain ⟨stored, compromised, escrow, expiry, request, contacts, code⟩ := keyBooks
    have primary : (t.vaults (s.vaultCount + 1)).bind (·.passkeyHash) = none := by
      rw [vaults, update_self, Option.bind_some, passkey]
    have keys : t.keys = update s.keys (s.vaultCount + 1) { s.keys (s.vaultCount + 1) with
          passkeys := (passkeys (s.vaultCount + 1)).map (·.hash), primary := none } := by
      refine keys_at ?_ fun other ne => ?_
      · rw [State.keys, State.keys, primary, stored, compromised, escrow, expiry, request, contacts,
          code]
      · have listed : passkeys other = s.checkIns.vaultPasskeys other := by
          rcases new with same | emptied
          · rw [same]
          · rw [emptied, update_of_ne ne]
        rw [State.keys, State.keys, vaults, update_of_ne ne, stored, listed,
          compromised, escrow, expiry, request, contacts, code]
    refine .inr ⟨s.vaultCount + 1, _, .opened ?_, keys⟩
    rcases new with same | emptied
    · rw [same]
      exact .inr rfl
    · rw [emptied, update_self]
      exact .inl rfl
  hibernation := hibernation ▸ .kept
  opened id u absent present := by
    rw [vaults] at present
    by_cases same : id = s.vaultCount + 1
    · rw [same, update_self] at present
      rw [← Option.some.inj present]
      exact signed
    · rw [update_of_ne same, absent] at present
      cases present

theorem of_requests (vaults : t.vaults = s.vaults) (multiSig : t.multiSig = s.multiSig)
    (keyBooks : t.keyBooks = s.keyBooks)
    (hibernation : t.checkIns.hibernation = s.checkIns.hibernation)
    (tenure : TenureStep env s call t.tenure) : Controlled env call s t where
  tenure := tenure
  multiSig := multiSig ▸ .kept
  keys := keys_eq keyBooks (fun id => by rw [vaults]) ▸ .kept
  hibernation := hibernation ▸ .kept
  opened := opened_of_isSome fun id => by rw [vaults]

theorem of_multiSig (vaults : t.vaults = s.vaults) (tenure : t.tenure = s.tenure)
    (keyBooks : t.keyBooks = s.keyBooks)
    (hibernation : t.checkIns.hibernation = s.checkIns.hibernation)
    (multiSig : MultiSigStep env s call t.multiSig) : Controlled env call s t where
  tenure := tenure ▸ .kept
  multiSig := multiSig
  keys := keys_eq keyBooks (fun id => by rw [vaults]) ▸ .kept
  hibernation := hibernation ▸ .kept
  opened := opened_of_isSome fun id => by rw [vaults]

theorem of_keys {id : VaultId} {new : VaultKeys}
    (stored : ∀ id, (t.vaults id).isSome = (s.vaults id).isSome)
    (tenure : t.tenure = s.tenure) (multiSig : t.multiSig = s.multiSig)
    (hibernation : t.checkIns.hibernation = s.checkIns.hibernation)
    (after : t.keys = update s.keys id new) (change : KeyChange env s call id new) :
    Controlled env call s t where
  tenure := tenure ▸ .kept
  multiSig := multiSig ▸ .kept
  keys := .inr ⟨id, new, change, after⟩
  hibernation := hibernation ▸ .kept
  opened := opened_of_isSome stored

end Controlled

end EthosContracts.TtlVault
