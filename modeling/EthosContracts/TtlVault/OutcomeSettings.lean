/-
**The outcomes of the calls that change a vault's settings**: beneficiaries, release settings,
metadata, ownership, registrations, creation, cloning and merging.

Most of them require a locked vault and leave its deadline alone (`Change.of_kept`). The ones that
do not look at the status change neither it nor the balance, the owner or the deadline
(`Change.of_settings`). Those that change the terms of a vault say which step of the tenure they
are.
-/

import EthosContracts.TtlVault.Batch
import EthosContracts.TtlVault.Outcome

namespace EthosContracts.TtlVault

open Lib Function List

section Settings

variable (env : Env) (s : State) (vaultId id : VaultId) (caller : Address)

/-! ### Beneficiaries -/

/-- Nobody on the new list is the owner. -/
@[simp] theorem setBeneficiaries_outcome (entries : List BeneficiaryEntry) :
    HasOutcome env s (.setBeneficiaries id caller entries) := by
  simp only [HasOutcome, exec.eq_def, setBeneficiaries, sumBps, wp_rules]
  intro _ _ _ v found _ locked _ _
  refine Tx.wp.mono (wp_forM_checks (fun entry => entry.address ≠ v.owner) fun entry => ?_) ?_
  · simp only [wp_rules]
    exact fun ne _ => ⟨trivial, ne⟩
  · rintro _ _ ⟨rfl, others⟩
    refine ⟨fun _ => .of_setting found rfl rfl rfl locked rfl locked rfl,
      .of_tenure found rfl rfl rfl rfl rfl rfl ?_, rfl⟩
    refine .listed found locked fun address member => .inr ?_
    obtain ⟨entry, listed, rfl⟩ := mem_map.mp member
    exact others entry listed

/-- A rotation is only noted down; its entries are checked like a list. -/
@[simp]
theorem scheduleBeneficiaryRotation_outcome (timestamp : Nat) (entries : List BeneficiaryEntry) :
    HasOutcome env s (.scheduleBeneficiaryRotation id caller timestamp entries) := by
  simp only [HasOutcome, exec.eq_def, scheduleBeneficiaryRotation, sumBps, wp_rules]
  intro _ v found _ locked _ _ _
  refine Tx.wp.mono (wp_forM_checks (fun entry => entry.address ≠ v.owner) fun entry => ?_) ?_
  · rw [require, wp_ensure]
    exact fun ne => ⟨rfl, ne⟩
  · rintro _ _ ⟨rfl, others⟩
    refine ⟨fun _ => .of_frame rfl rfl rfl rfl,
      .of_requests rfl rfl rfl rfl (.scheduled found (fun member => ?_) rfl), rfl⟩
    obtain ⟨entry, listed, same⟩ := mem_map.mp member
    exact others entry listed same

/-- The added address is not the owner. -/
@[simp] theorem addBeneficiary_outcome (address : Address) (percentage : Nat) :
    HasOutcome env s (.addBeneficiary id caller address percentage) := by
  simp only [HasOutcome, exec.eq_def, addBeneficiary, sumBps, wp_rules]
  intro _ v found _ locked ne _ _ _ _ _
  refine ⟨fun _ => .of_setting found rfl rfl rfl locked rfl locked rfl,
    .of_tenure found rfl rfl rfl rfl rfl rfl ?_, rfl⟩
  refine .listed found locked fun other member => ?_
  rw [map_append, mem_append] at member
  rcases member with earlier | last
  · exact .inl earlier
  · rw [mem_singleton.mp last]
    exact .inr ne

@[simp] theorem removeBeneficiary_outcome (address : Address) :
    HasOutcome env s (.removeBeneficiary id caller address) := by
  simp only [HasOutcome, exec.eq_def, removeBeneficiary, wp_rules]
  intro _ v found _ locked _
  refine ⟨fun _ => .of_setting found rfl rfl rfl locked rfl locked rfl,
    .of_tenure found rfl rfl rfl rfl rfl rfl ?_, rfl⟩
  refine .listed found locked fun other member => .inl ?_
  obtain ⟨entry, kept, rfl⟩ := mem_map.mp member
  exact mem_map_of_mem (mem_filter.mp kept).1

@[simp] theorem setBenMinThreshold_outcome (address : Address) (threshold : Int) :
    HasOutcome env s (.setBenMinThreshold id caller address threshold) := by
  simp only [HasOutcome, exec.eq_def, setBenMinThreshold, wp_rules]
  intro _ v found _ locked _ _
  refine .of_setting found rfl rfl ?_ rfl locked rfl
  -- only thresholds change, so the addresses are the same list
  have addresses : ((v.beneficiaries.map fun entry => if entry.address = address then
      { entry with minimumThreshold := threshold } else entry).map (·.address)) =
      v.beneficiaries.map (·.address) := by
    rw [map_map]
    refine map_congr_left fun entry _ => ?_
    simp only [Function.comp_apply]
    split_ifs <;> rfl
  simp only [Vault.control, Vault.terms, addresses]

/-- The index of beneficiaries follows a change, as `Index.move` does. -/
theorem moveBeneficiaryIndex_spec (old new : Address) :
    (moveBeneficiaryIndex id old new).wp s fun _ t => t = { s with
      index.beneficiaryVaults := Index.move s.index.beneficiaryVaults old new id } := by
  simp only [moveBeneficiaryIndex, removeBeneficiaryVaultId, addBeneficiaryVaultId, wp_rules]
  refine ⟨fun ne => ?_, fun same => ?_⟩
  · rw [Index.move, if_pos ne]
    rfl
  · rw [Index.move, if_neg same]

theorem moveOwnerIndex_spec (old new : Address) :
    (moveOwnerIndex id old new).wp s fun _ t => t = { s with
      index.ownerVaults := Index.move s.index.ownerVaults old new id } := by
  simp only [moveOwnerIndex, removeOwnerVaultId, addOwnerVaultId, wp_rules]
  refine ⟨fun ne => ?_, fun same => ?_⟩
  · rw [Index.move, if_pos ne]
    rfl
  · rw [Index.move, if_neg same]

/-- The call looks at the request and not at the status of the vault. -/
@[simp] theorem applyBeneficiaryUpdate_outcome :
    HasOutcome env s (.applyBeneficiaryUpdate id caller) := by
  simp only [HasOutcome, exec.eq_def, applyBeneficiaryUpdate, wp_rules]
  intro _ v found _ pending stored _
  have given : ((Call.applyBeneficiaryUpdate id caller).newBeneficiary s id).isSome := by
    rw [Call.newBeneficiary, if_pos rfl, stored]
    rfl
  refine ⟨fun _ _ => Tx.wp.mono (moveBeneficiaryIndex_spec _ id _ _) ?_,
    fun _ => Tx.wp.mono (moveBeneficiaryIndex_spec _ id _ _) ?_⟩
  all_goals
    rintro _ _ rfl
    refine ⟨fun _ => .of_save found rfl rfl rfl rfl (.of_settings rfl rfl rfl rfl ⟨rfl, .inr given⟩),
      .of_tenure found rfl rfl rfl rfl rfl rfl ?_, rfl⟩
    exact .applied found stored

/-! ### Settings of a release -/

@[simp] theorem setSpendingLimit_outcome (limit : Option Int) :
    HasOutcome env s (.setSpendingLimit id limit) := by
  simp only [HasOutcome, exec.eq_def, setSpendingLimit, wp_rules]
  intro v found _ _
  exact .of_save found rfl rfl rfl rfl (.of_settings rfl rfl rfl rfl ⟨rfl, .inl rfl⟩)

@[simp] theorem setBurnPercentage_outcome (percentage : Nat) :
    HasOutcome env s (.setBurnPercentage id percentage) := by
  simp only [HasOutcome, exec.eq_def, setBurnPercentage, wp_rules]
  intro v found _ _
  exact .of_save found rfl rfl rfl rfl (.of_settings rfl rfl rfl rfl ⟨rfl, .inl rfl⟩)

@[simp] theorem setReleaseCondition_outcome (condition : ReleaseCondition) :
    HasOutcome env s (.setReleaseCondition id caller condition) := by
  simp only [HasOutcome, exec.eq_def, setReleaseCondition, wp_rules]
  intro _ v found _ locked
  exact .of_setting found rfl rfl rfl rfl locked rfl

/-! ### Pause and metadata -/

@[simp] theorem pauseVault_outcome : HasOutcome env s (.pauseVault id caller) := by
  simp only [HasOutcome, exec.eq_def, pauseVault, wp_rules]
  intro _ v found _ locked
  exact .of_setting found rfl rfl rfl rfl locked rfl

@[simp] theorem resumeVault_outcome : HasOutcome env s (.resumeVault id caller) := by
  simp only [HasOutcome, exec.eq_def, resumeVault, wp_rules]
  intro _ v found _ locked
  exact .of_setting found rfl rfl rfl rfl locked rfl

@[simp] theorem updateMetadata_outcome (metadata : String) :
    HasOutcome env s (.updateMetadata id caller metadata) := by
  simp only [HasOutcome, exec.eq_def, updateMetadata, wp_rules]
  intro _ _ _ v found _ locked
  exact .of_setting found rfl rfl rfl rfl locked rfl

@[simp] theorem setVaultMetadata_outcome (metadata : Bytes) :
    HasOutcome env s (.setVaultMetadata id caller metadata) := by
  simp only [HasOutcome, exec.eq_def, setVaultMetadata, wp_rules]
  intro _ _ _ _ v found _ locked
  exact .of_setting found rfl rfl rfl rfl locked rfl

@[simp] theorem updateMetadataVersioned_outcome (metadata : String) :
    HasOutcome env s (.updateMetadataVersioned id caller metadata) := by
  simp only [HasOutcome, exec.eq_def, updateMetadataVersioned, wp_rules]
  intro _ _ _ v found _ locked
  exact .of_setting found rfl rfl rfl rfl locked rfl

@[simp] theorem revertMetadata_outcome (version : Nat) :
    HasOutcome env s (.revertMetadata id caller version) := by
  simp only [HasOutcome, exec.eq_def, revertMetadata, wp_rules]
  intro _ v found _ locked _ _
  exact .of_setting found rfl rfl rfl rfl locked rfl

/-- The vault is loaded and saved again. -/
@[simp] theorem restoreVault_outcome : HasOutcome env s (.restoreVault id caller) := by
  simp only [HasOutcome, exec.eq_def, restoreVault, wp_rules]
  intro _ _ _ v found _
  exact .of_save found rfl rfl rfl rfl .refl

/-! ### Ownership -/

/-- The address named by the stored request becomes the owner of a locked vault. -/
@[simp] theorem acceptOwnershipTransfer_outcome (newOwner : Address) :
    HasOutcome env s (.acceptOwnershipTransfer id newOwner) := by
  simp only [HasOutcome, exec.eq_def, acceptOwnershipTransfer, setPendingOwnership, wp_rules]
  intro _ _ request stored named _ _ v found locked
  subst named
  refine Tx.wp.mono (moveOwnerIndex_spec s id v.owner request.newOwner) ?_
  rintro _ _ rfl
  refine ⟨fun _ => .of_setting found rfl rfl rfl locked rfl locked rfl,
    .of_tenure found rfl rfl rfl rfl rfl rfl ?_, rfl⟩
  exact .accepted found locked stored

/-- The owner hands a locked vault over directly. -/
@[simp] theorem transferOwnership_outcome (newOwner : Address) :
    HasOutcome env s (.transferOwnership id caller newOwner) := by
  simp only [HasOutcome, exec.eq_def, transferOwnership, wp_rules]
  intro _ _ v found _ locked _
  refine Tx.wp.mono (moveOwnerIndex_spec s id v.owner newOwner) ?_
  rintro _ _ rfl
  refine ⟨fun _ => .of_setting found rfl rfl rfl locked rfl locked rfl,
    .of_tenure found rfl rfl rfl rfl rfl rfl ?_, rfl⟩
  refine .transferred found ?_ (.inl ⟨locked, caller, rfl⟩)
  exact if_pos rfl

/-! ### Registrations -/

/-- A delegate was listed before or is named by the owner now. -/
@[simp] theorem addCheckInDelegate_outcome (delegate : Address) :
    HasOutcome env s (.addCheckInDelegate vaultId caller delegate) := by
  simp only [HasOutcome, exec.eq_def, addCheckInDelegate, setCheckInDelegates, wp_rules]
  rintro ⟨_, signed⟩ v found rfl _ _
  refine .of_registered rfl rfl rfl rfl { Registers.refl s with delegates := fun id other member => ?_ }
  simp only [State.registry, State.core, Core.registry, update_apply] at member
  split_ifs at member with same
  · rcases mem_append.mp member with earlier | last
    · exact .inl (same ▸ earlier)
    · rw [same, mem_singleton.mp last]
      exact .inr ⟨v, found, rfl, signed⟩
  · exact .inl member

@[simp] theorem removeCheckInDelegate_outcome (delegate : Address) :
    HasOutcome env s (.removeCheckInDelegate vaultId caller delegate) := by
  simp only [HasOutcome, exec.eq_def, removeCheckInDelegate, setCheckInDelegates, wp_rules]
  intro _ v found _ _
  refine .of_registered rfl rfl rfl rfl { Registers.refl s with delegates := fun id other member => ?_ }
  simp only [State.registry, State.core, Core.registry, update_apply] at member
  split_ifs at member with same
  · exact .inl (same ▸ (mem_filter.mp member).1)
  · exact .inl member

/-- A delegated passkey was so before or is delegated by the owner now. -/
@[simp]
theorem delegatePasskey_outcome (passkeyHash : Hash) (delegate : Address) (expiresAt : Nat) :
    HasOutcome env s (.delegatePasskey vaultId caller passkeyHash delegate expiresAt) := by
  simp only [HasOutcome, exec.eq_def, delegatePasskey, setPasskeyDelegation, wp_rules]
  rintro ⟨_, signed⟩ v found rfl _ _ _ _
  refine .of_registered rfl rfl rfl rfl { Registers.refl s with passkeys := fun id hash _ stored => ?_ }
  simp only [State.registry, State.core, Core.registry, update_apply, ite_apply] at stored
  split_ifs at stored with same sameHash
  · cases stored
    exact .inr ⟨v, same ▸ found, same ▸ sameHash ▸ rfl, signed⟩
  · exact .inl (same ▸ stored)
  · exact .inl stored

@[simp] theorem revokePasskeyDelegation_outcome (passkeyHash : Hash) :
    HasOutcome env s (.revokePasskeyDelegation vaultId caller passkeyHash) := by
  simp only [HasOutcome, exec.eq_def, revokePasskeyDelegation, setPasskeyDelegation, wp_rules]
  intro _ v found _
  refine .of_registered rfl rfl rfl rfl { Registers.refl s with passkeys := fun id hash _ stored => ?_ }
  simp only [State.registry, State.core, Core.registry, update_apply, ite_apply] at stored
  split_ifs at stored with same
  · exact .inl (same ▸ stored)
  · exact .inl stored

/-- A recovery code was stored before or comes from the owner now. -/
@[simp] theorem generateRecoveryCode_outcome (code : Bytes) :
    HasOutcome env s (.generateRecoveryCode vaultId code) := by
  simp only [HasOutcome, exec.eq_def, generateRecoveryCode, setRecoveryCodeHash, wp_rules]
  rintro v found ⟨_, signed⟩ _
  refine ⟨fun _ => .of_registered rfl rfl rfl
    { Registers.refl s with codes := fun id hash stored => ?_ },
    .of_keys (fun _ => rfl) rfl rfl rfl (keys_at ?_ ?_) (.coded found signed), rfl⟩
  · simp only [State.registry, State.core, Core.registry, update_apply] at stored
    split_ifs at stored with same
    · exact .inr ⟨v, code, same ▸ found, same ▸ rfl, (Option.some.inj stored).symm, signed⟩
    · exact .inl stored
  · simp only [State.keys, update_self]
  · intro other ne
    simp only [State.keys, update_of_ne ne]

/-- The primary passkey is replaced by the owner. -/
@[simp] theorem rotatePasskey_outcome (old new : Hash) :
    HasOutcome env s (.rotatePasskey id caller old new) := by
  simp only [HasOutcome, exec.eq_def, rotatePasskey, wp_rules]
  rintro ⟨_, signed⟩ v found rfl locked _
  refine ⟨fun _ => .of_setting found rfl rfl rfl locked rfl locked rfl, .of_keys (isSome_save found rfl)
    (tenure_kept found rfl rfl rfl) rfl rfl (keys_at ?_ ?_) (.rotated found signed), rfl⟩
  · simp only [State.keys, update_self, Option.bind_some]
  · intro other ne
    simp only [State.keys, update_of_ne ne]

@[simp] theorem setVestingForfeiture_outcome (recipient : Address) :
    HasOutcome env s (.setVestingForfeiture id caller recipient) := by
  simp only [HasOutcome, exec.eq_def, setVestingForfeiture, wp_rules]
  intros
  exact .of_frame rfl rfl rfl

/-- Writing a staking record, if none with a stake appears. -/
theorem Outcome.of_staking {call : Call} {staking : Option TokenStaking}
    (zero : s.registry.Unstaked → ∀ stake ∈ staking, stake.stakedAmount = 0) :
    Outcome env call s { s with vesting.staking := update s.vesting.staking vaultId staking } := by
  refine .of_registered rfl rfl rfl rfl
    { Registers.refl s with staking := fun unstaked id stake stored => ?_ }
  simp only [State.registry, State.core, Core.registry, update_apply] at stored
  split_ifs at stored
  · exact zero unstaked stake stored
  · exact unstaked id stake stored

@[simp] theorem enableTokenStaking_outcome (stakingPool : Address) (annualYieldBps : Nat) :
    HasOutcome env s (.enableTokenStaking id stakingPool annualYieldBps) := by
  simp only [HasOutcome, exec.eq_def, enableTokenStaking, setStaking, wp_rules]
  intro v found _
  refine .of_staking env s id fun _ stake new => ?_
  rw [← Option.some.inj new]

@[simp] theorem disableTokenStaking_outcome : HasOutcome env s (.disableTokenStaking id) := by
  simp only [HasOutcome, exec.eq_def, disableTokenStaking, setStaking, wp_rules]
  intro v found _
  refine .of_staking env s id fun unstaked stake new => ?_
  obtain ⟨old, stored, rfl⟩ := Option.map_eq_some_iff.mp new
  exact unstaked id old stored

end Settings

section Opening

variable (env : Env) {s : State}

/-- A new vault, listed under its owner and its beneficiary. -/
@[simp] theorem createVault_outcome (owner beneficiary : Address) (interval : Nat)
    (token : Option Address) :
    HasOutcome env s (.createVault owner beneficiary interval token) := by
  simp only [HasOutcome, exec.eq_def, createVault, initPasskeys, assertOwnerCapacity, addOwnerVaultId,
    addBeneficiaryVaultId, setVaultDuplicate, wp_rules]
  intro signed _ _ _ _ _ _ _ _ ne _ _ _ fresh _ _
  refine (chooseToken_readonly token).wp fun chosen _ => ?_
  refine ⟨fun regular => .of_open regular.counted rfl rfl rfl rfl rfl,
    .of_open rfl rfl signed.2 rfl rfl (.inr rfl) rfl rfl ?_, rfl⟩
  exact .created ne (Option.isNone_iff_eq_none.mp fresh)

/-- What the two clone calls have in common. -/
theorem registerClone_outcome {call : Call} {clone : Vault}
    (copies : call.copies = true) (signed : clone.owner ∈ env.signers)
    (passkey : clone.passkeyHash = none) (locked : clone.status = .locked)
    (ne : clone.owner ≠ clone.beneficiary)
    (listed : clone.owner ∈ clone.terms.beneficiaries → ∃ id v, s.vaults id = some v ∧
      v.status = .locked ∧ v.owner = clone.owner ∧ v.owner ∈ v.terms.beneficiaries) :
    (registerClone clone).wp s fun _ t => Outcome env call s t := by
  simp only [registerClone, addOwnerVaultId, addBeneficiaryVaultId, wp_rules]
  intro _
  have copied : TenureStep env s call (s.tenure.opened clone.terms) :=
    .copied copies locked ne listed
  refine ⟨fun regular => .of_open regular.counted rfl rfl rfl rfl locked,
    .of_open rfl passkey signed rfl rfl (.inl rfl) rfl rfl ?_, rfl⟩
  exact copied

@[simp] theorem cloneVault_outcome (sourceVaultId : VaultId) (newOwner newBeneficiary : Address) :
    HasOutcome env s (.cloneVault sourceVaultId newOwner newBeneficiary) := by
  simp only [HasOutcome, exec.eq_def, cloneVault, wp_rules]
  intro signed original found owner locked ne
  refine registerClone_outcome env rfl signed.2 rfl rfl ne fun member => ?_
  exact ⟨sourceVaultId, original, found, locked, owner.symm, owner ▸ member⟩

theorem overrideInterval_readonly (original : Nat) (requested : Option Nat) :
    (overrideInterval original requested).Readonly := by
  intro s
  unfold overrideInterval
  split <;> simp

/-- The list of the original, or one without the new owner. -/
theorem overrideBeneficiaries_spec (s : State) (newOwner : Address)
    (original : List BeneficiaryEntry) (requested : Option (List BeneficiaryEntry)) :
    (overrideBeneficiaries newOwner original requested).wp s fun entries t =>
      t = s ∧ (entries = original ∨ ∀ entry ∈ entries, entry.address ≠ newOwner) := by
  unfold overrideBeneficiaries
  cases requested with
  | none =>
    rw [wp_pure]
    exact ⟨rfl, .inl rfl⟩
  | some entries =>
    simp only [sumBps, wp_rules]
    refine ⟨fun empty => ⟨trivial, .inr ?_⟩, fun _ _ _ => ?_⟩
    · rw [List.isEmpty_iff.mp empty]
      exact List.forall_mem_nil _
    · refine Tx.wp.mono (wp_forM_checks (fun entry => entry.address ≠ newOwner) fun entry => ?_) ?_
      · rw [require, wp_ensure]
        exact fun ne => ⟨rfl, ne⟩
      · rintro _ _ ⟨same, others⟩
        exact ⟨same, .inr others⟩

@[simp] theorem cloneVaultWithOverrides_outcome (sourceVaultId : VaultId)
    (newOwner newBeneficiary : Address) (interval : Option Nat)
    (beneficiaries : Option (List BeneficiaryEntry)) (metadata : Option String) :
    HasOutcome env s (.cloneVaultWithOverrides sourceVaultId newOwner newBeneficiary interval
      beneficiaries metadata) := by
  simp only [HasOutcome, exec.eq_def, cloneVaultWithOverrides, wp_rules]
  intro signed original found owner locked ne
  refine (overrideInterval_readonly original.checkInInterval interval).wp fun chosen => ?_
  refine (overrideBeneficiaries_spec s newOwner original.beneficiaries beneficiaries).mono ?_
  rintro entries t ⟨rfl, chosenEntries⟩ _
  refine registerClone_outcome env rfl signed.2 rfl rfl ne fun member => ?_
  rcases chosenEntries with same | others
  · subst same
    exact ⟨sourceVaultId, original, found, locked, owner.symm, owner ▸ member⟩
  · obtain ⟨entry, listed, same⟩ := mem_map.mp member
    exact absurd same (others entry listed)

/-- The new vault starts without a list of beneficiaries. -/
@[simp] theorem createVaultFromInheritance_outcome (parentVaultId : VaultId)
    (caller newBeneficiary : Address) (interval : Nat) (token : Option Address) :
    HasOutcome env s
      (.createVaultFromInheritance parentVaultId caller newBeneficiary interval token) := by
  simp only [HasOutcome, exec.eq_def, createVaultFromInheritance, addOwnerVaultId,
    addBeneficiaryVaultId, wp_rules]
  intro signed _ _ _ _ _ _ _ _ ne
  refine (chooseToken_readonly token).wp fun chosen _ => ?_
  have copied : TenureStep env s
      (.createVaultFromInheritance parentVaultId caller newBeneficiary interval token)
      (s.tenure.opened ⟨caller, newBeneficiary, interval, .locked, []⟩) :=
    .copied rfl rfl ne (by rintro ⟨⟩)
  refine ⟨fun regular => .of_open regular.counted rfl rfl rfl rfl rfl,
    .of_open rfl rfl signed.2 rfl rfl (.inl rfl) rfl rfl ?_, rfl⟩
  exact copied

end Opening

/-! ### Merging -/

/-- A vault after its balance went into another one. -/
def Vault.absorbed (vault : Vault) : Vault := { vault with balance := 0, status := .cancelled }

/-- The loop over the sources empties and cancels every one of them. -/
theorem absorbSources_spec (sources : List VaultId) : ∀ (balance : Int) (s : State),
    (absorbSources sources balance).wp s fun _ t =>
      (∃ vaults index, t = { s with vaults := vaults, index := index }) ∧
      (∀ id, t.vaults id = if id ∈ sources then (s.vaults id).map Vault.absorbed
        else s.vaults id) ∧ t.tenure = sources.foldl Tenure.absorb s.tenure := by
  induction sources with
  | nil =>
    intro balance s
    rw [absorbSources, wp_pure]
    exact ⟨⟨s.vaults, s.index, rfl⟩, fun id => by rw [if_neg not_mem_nil], rfl⟩
  | cons sourceId rest ih =>
    intro balance s
    simp only [absorbSources, removeOwnerVaultId, removeBeneficiaryVaultId, wp_rules]
    intro source found _
    refine (ih _ _).mono ?_
    rintro _ t ⟨⟨vaults, index, rfl⟩, rest', tenure⟩
    refine ⟨⟨vaults, index, rfl⟩, fun id => ?_, ?_⟩
    · rw [rest' id]
      by_cases same : id = sourceId
      · subst same
        rw [if_pos mem_cons_self, found]
        simp only [update_self]
        -- a source listed twice is absorbed twice, which is absorbing it once
        split_ifs <;> rfl
      · simp only [update_of_ne same, mem_cons, same, false_or]
    · have absorbed : s.tenure.absorb sourceId = s.tenure.cancel sourceId source.terms := by
        rw [Tenure.absorb, terms_of_found found]
      rw [tenure, foldl_cons, absorbed]
      refine congrArg (rest.foldl Tenure.absorb) ?_
      exact tenure_save (w := source.absorbed) rfl rfl

/-- The target gets the balances; the sources are cancelled. -/
@[simp]
theorem mergeVaults_outcome (env : Env) (s : State) (targetId : VaultId) (sources : List VaultId)
    (caller : Address) : HasOutcome env s (.mergeVaults targetId sources caller) := by
  simp only [HasOutcome, exec.eq_def, mergeVaults, wp_rules]
  intro _ _ target found _ locked
  refine (validateSources_spec targetId target sources s).mono ?_
  rintro _ s' ⟨rfl, checked⟩
  refine (absorbSources_spec sources target.balance s').mono ?_
  rintro balance t ⟨⟨vaults, index, rfl⟩, absorbed, tenure⟩
  dsimp only at absorbed
  -- the target is no source, so it is still there as it was
  have foundTarget : vaults targetId = some target := by
    rw [absorbed targetId, if_neg fun member => (checked targetId member).1 rfl, found]
  have credited : Unchanged { s' with vaults := vaults, index := index } { s' with
      vaults := update vaults targetId (some { target with balance := balance })
      index := index } :=
    .of_save foundTarget rfl rfl rfl
  have passkeys : ∀ id, (vaults id).map (·.passkeyHash) = (s'.vaults id).map (·.passkeyHash) := by
    intro id
    rw [absorbed id]
    split_ifs
    · rw [Option.map_map]
      rfl
    · rfl
  refine ⟨fun _ => .of_vaults ?_ ?_ rfl rfl ⟨[], (append_nil _).symm, forall_mem_nil _⟩,
    .of_tenureOnly ⟨?_, ?_, rfl, fun id => ?_⟩ rfl, rfl⟩
  · intro id v stored
    by_cases same : id = targetId
    · subst same
      obtain rfl := Option.mem_unique found stored
      refine ⟨{ target with balance := balance }, update_self .., ?_⟩
      exact .of_kept locked locked rfl
    · simp only [update_of_ne same]
      rw [absorbed id, stored]
      by_cases member : id ∈ sources
      · obtain ⟨-, source, foundSource, -, sourceLocked⟩ := checked id member
        obtain rfl := Option.mem_unique foundSource stored
        rw [if_pos member]
        exact ⟨source.absorbed, rfl, .of_locked sourceLocked (fun _ => rfl) rfl⟩
      · rw [if_neg member]
        exact ⟨v, rfl, .refl⟩
  · intro id absent
    have ne : id ≠ targetId := by
      rintro rfl
      rw [found] at absent
      cases absent
    simp only [update_of_ne ne]
    rw [absorbed id, absent]
    split_ifs <;> rfl
  · rw [credited.tenure, tenure]
    refine .merged fun id member => ?_
    obtain ⟨-, source, foundSource, -, sourceLocked⟩ := checked id member
    exact ⟨source, foundSource, sourceLocked⟩
  · rw [credited.keys]
    refine keys_eq rfl fun id => ?_
    have same := congrArg (·.bind fun passkey => passkey) (passkeys id)
    rw [Option.bind_map, Option.bind_map] at same
    exact same
  · have same := congrArg Option.isSome (passkeys id)
    rw [Option.isSome_map, Option.isSome_map] at same
    exact (credited.isSome id).trans same

end EthosContracts.TtlVault
