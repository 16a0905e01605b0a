/-
**The record keeping calls about the control of vaults.**

They write no vault and pay nothing (`execRecord_frame`), so only their step of control is to be
given: requests about beneficiaries and owners (`TenureStep`), signers and proposals
(`MultiSigStep`), passkeys (`KeysStep`), hibernation (`HibernationStep`).
-/

import EthosContracts.TtlVault.ControlStep

namespace EthosContracts.TtlVault

open Lib Function

/-- A record keeping call that succeeds makes a step of control. -/
def Controls (env : Env) (s : State) (call : RecordCall) : Prop :=
  (execRecord env call).wp s fun _ t => Controlled env (.record call) s t

variable (env : Env) (s : State) (id : VaultId) (caller : Address)
variable (proposalId : Nat) (passkeyHash : Hash)

/-! ### Requests -/

@[simp] theorem updateBeneficiary_controlled (newBeneficiary : Address) :
    Controls env s (.updateBeneficiary id caller newBeneficiary) := by
  simp only [Controls, execRecord.eq_def, updateBeneficiary, wp_rules]
  intro _ v found _ _ locked ne _ _
  exact .of_requests rfl rfl rfl rfl (.proposed found ne.symm rfl)

@[simp] theorem initiateOwnershipTransfer_controlled (newOwner : Address) :
    Controls env s (.initiateOwnershipTransfer id caller newOwner) := by
  simp only [Controls, execRecord.eq_def, initiateOwnershipTransfer, setPendingOwnership, wp_rules]
  intro _ _ v found owner _ _ _ _ _
  exact .of_requests rfl rfl rfl rfl (.initiated found owner)

@[simp] theorem cancelOwnershipTransfer_controlled :
    Controls env s (.cancelOwnershipTransfer id caller) := by
  simp only [Controls, execRecord.eq_def, cancelOwnershipTransfer, setPendingOwnership, wp_rules]
  intros
  exact .of_requests rfl rfl rfl rfl .withdrawn

@[simp]
theorem expireOwnershipTransfer_controlled : Controls env s (.expireOwnershipTransfer id) := by
  simp only [Controls, execRecord.eq_def, expireOwnershipTransfer, setPendingOwnership, wp_rules]
  intros
  exact .of_requests rfl rfl rfl rfl .withdrawn

/-! ### Signers and proposals -/

@[simp] theorem configureMultisig_controlled (signers : List Address) (threshold : Nat) :
    Controls env s (.configureMultisig id caller signers threshold) := by
  simp only [Controls, execRecord.eq_def, configureMultisig, setMultiSigConfig, wp_rules]
  intros
  exact .of_multiSig rfl rfl rfl rfl .configured

@[simp] theorem removeMultisig_controlled : Controls env s (.removeMultisig id caller) := by
  simp only [Controls, execRecord.eq_def, removeMultisig, setMultiSigConfig, wp_rules]
  intros
  exact .of_multiSig rfl rfl rfl rfl .configured

@[simp] theorem removeMultisigSigner_controlled (signer : Address) :
    Controls env s (.removeMultisigSigner id caller signer) := by
  simp only [Controls, execRecord.eq_def, removeMultisigSigner, setMultiSigConfig, wp_rules]
  intros
  exact .of_multiSig rfl rfl rfl rfl .reduced

@[simp] theorem proposeMultisig_controlled (operation : MultiSigOperation) (payload : Bytes)
    (addressPayload : Option Address) :
    Controls env s (.proposeMultisig id caller operation payload addressPayload) := by
  simp only [Controls, execRecord.eq_def, proposeMultisig, setProposal, wp_rules]
  intro signed v found owner _ configured _ _
  obtain ⟨config, stored⟩ := Option.isSome_iff_exists.mp configured
  exact .of_multiSig rfl rfl rfl rfl (.proposed signed.2 stored ⟨v, found, .inl owner⟩)

@[simp]
theorem approveMultisig_controlled : Controls env s (.approveMultisig id proposalId caller) := by
  simp only [Controls, execRecord.eq_def, approveMultisig, loadAsSigner, loadProposal, setProposal,
    wp_rules]
  intro signed config stored v found signer proposal open' pending _ new
  exact .of_multiSig rfl rfl rfl rfl
    (.approved signed.2 stored ⟨v, found, signer⟩ open' pending new)

@[simp]
theorem rejectMultisig_controlled : Controls env s (.rejectMultisig id proposalId caller) := by
  simp only [Controls, execRecord.eq_def, rejectMultisig, loadProposal, setProposal, closeProposal,
    wp_rules]
  intro _ _ _ _ proposal open' pending
  exact .of_multiSig rfl rfl rfl rfl (.rejected open' pending)

@[simp]
theorem vetoProposal_controlled : Controls env s (.vetoProposal id proposalId caller) := by
  simp only [Controls, execRecord.eq_def, vetoProposal, loadAsSigner, loadProposal, setProposal,
    wp_rules]
  intro _ _ _ _ _ _ proposal open' unfinished
  exact .of_multiSig rfl rfl rfl rfl (.vetoed open' unfinished.1)

/-! ### Passkeys -/

@[simp]
theorem addPasskey_controlled : Controls env s (.addPasskey id caller passkeyHash) := by
  simp only [Controls, execRecord.eq_def, addPasskey, setVaultPasskeys, wp_rules]
  rintro ⟨_, signed⟩ v found rfl _
  refine .of_keys (fun _ => rfl) rfl rfl rfl (keys_at ?_ ?_) (.added found signed)
  · simp only [State.keys, update_self, List.map_append, List.map_cons, List.map_nil]
  · intro other ne
    simp only [State.keys, update_of_ne ne]

@[simp]
theorem removePasskey_controlled : Controls env s (.removePasskey id caller passkeyHash) := by
  simp only [Controls, execRecord.eq_def, removePasskey, setVaultPasskeys, wp_rules]
  rintro ⟨_, signed⟩ v found rfl _ _
  refine .of_keys (fun _ => rfl) rfl rfl rfl (keys_at ?_ ?_) (.removed found signed)
  · simp only [State.keys, update_self, List.filter_map]
    rfl
  · intro other ne
    simp only [State.keys, update_of_ne ne]

theorem bindFirst_hashes (biometricHash : Option Bytes) (passkeys : List PasskeyHash) :
    (bindFirst passkeyHash biometricHash passkeys).map (·.hash) = passkeys.map (·.hash) := by
  induction passkeys with
  | nil => rfl
  | cons passkey rest ih =>
    rw [bindFirst]
    split_ifs
    · rfl
    · rw [List.map_cons, List.map_cons, ih]

theorem setPasskeyBiometric_controlled {call : Call} (biometricHash : Option Bytes) :
    (setPasskeyBiometric env id caller passkeyHash biometricHash).wp s fun _ t =>
      Controlled env call s t := by
  simp only [setPasskeyBiometric, setVaultPasskeys, wp_rules]
  intro _ _ _ _ _ _
  refine ⟨.kept, .kept, .inl ?_, .kept, Controlled.opened_of_isSome fun _ => rfl⟩
  funext other
  by_cases same : other = id
  · subst same
    simp only [State.keys, update_self, bindFirst_hashes]
  · simp only [State.keys, update_of_ne same]

@[simp] theorem reportPasskeyCompromise_controlled :
    Controls env s (.reportPasskeyCompromise id caller passkeyHash) := by
  simp only [Controls, execRecord.eq_def, reportPasskeyCompromise, setCompromisedPasskeys, wp_rules]
  rintro ⟨_, signed⟩ v found rfl
  refine ⟨fun _ => .of_unchanged .refl, fun _ => ?_⟩
  refine .of_keys (fun _ => rfl) rfl rfl rfl (keys_at rfl ?_) (.assessed found signed)
  intro other ne
  simp only [State.keys, update_of_ne ne]

@[simp] theorem clearPasskeyCompromise_controlled :
    Controls env s (.clearPasskeyCompromise id caller passkeyHash) := by
  simp only [Controls, execRecord.eq_def, clearPasskeyCompromise, setCompromisedPasskeys, wp_rules]
  rintro ⟨_, signed⟩ v found rfl
  refine .of_keys (fun _ => rfl) rfl rfl rfl (keys_at rfl ?_) (.assessed found signed)
  intro other ne
  simp only [State.keys, update_of_ne ne]

@[simp] theorem extendPasskeyExpiry_controlled (newExpiry : Nat) :
    Controls env s (.extendPasskeyExpiry id caller passkeyHash newExpiry) := by
  simp only [Controls, execRecord.eq_def, extendPasskeyExpiry, wp_rules]
  rintro ⟨_, signed⟩ v found rfl
  refine .of_keys (fun _ => rfl) rfl rfl rfl (keys_at rfl ?_) (.assessed found signed)
  intro other ne
  simp only [State.keys, update_of_ne ne]

@[simp] theorem escrowPasskey_controlled (contact : Address) :
    Controls env s (.escrowPasskey id caller passkeyHash contact) := by
  simp only [Controls, execRecord.eq_def, escrowPasskey, setPasskeyEscrow, wp_rules]
  rintro ⟨_, signed⟩ v found rfl _ _ _ _
  refine .of_keys (fun _ => rfl) rfl rfl rfl (keys_at ?_ ?_) (.escrowed found signed)
  · simp only [State.keys, update_self]
  · intro other ne
    simp only [State.keys, update_of_ne ne]

@[simp] theorem releaseEscrowPasskey_controlled :
    Controls env s (.releaseEscrowPasskey id caller passkeyHash) := by
  simp only [Controls, execRecord.eq_def, releaseEscrowPasskey, setPasskeyEscrow, wp_rules]
  intro signed record stored contact
  refine .of_keys (fun _ => rfl) rfl rfl rfl (keys_at ?_ ?_) (.returned stored contact signed.2)
  · simp only [State.keys, update_self]
  · intro other ne
    simp only [State.keys, update_of_ne ne]

@[simp] theorem cancelPasskeyEscrow_controlled :
    Controls env s (.cancelPasskeyEscrow id caller passkeyHash) := by
  simp only [Controls, execRecord.eq_def, cancelPasskeyEscrow, setPasskeyEscrow, wp_rules]
  rintro ⟨_, signed⟩ v found rfl _
  refine .of_keys (fun _ => rfl) rfl rfl rfl (keys_at ?_ ?_) (.reclaimed found signed)
  · simp only [State.keys, update_self]
  · intro other ne
    simp only [State.keys, update_of_ne ne]

/-! ### Recovery -/

@[simp] theorem initiatePasskeyRecovery_controlled (code : String) (contacts : List Address)
    (required : Nat) :
    Controls env s (.initiatePasskeyRecovery id passkeyHash code contacts required) := by
  simp only [Controls, execRecord.eq_def, initiatePasskeyRecovery, setPasskeyRecoveryRequest, wp_rules]
  intro bounds
  refine .of_keys (fun _ => rfl) rfl rfl rfl (keys_at ?_ ?_) (.initiated bounds.1)
  · simp only [State.keys, update_self]
  · intro other ne
    simp only [State.keys, update_of_ne ne]

@[simp]
theorem approvePasskeyRecovery_controlled : Controls env s (.approvePasskeyRecovery id caller) := by
  simp only [Controls, execRecord.eq_def, approvePasskeyRecovery, setVaultPasskeys,
    setPasskeyRecoveryRequest, wp_rules]
  intro signed contacts named contact request stored new
  refine ⟨fun enough => ?_, fun _ => ?_⟩
  · refine .of_keys (fun _ => rfl) rfl rfl rfl (keys_at ?_ ?_)
      (.granted named contact signed.2 stored new enough)
    · simp only [State.keys, update_self, List.map_append, List.map_cons, List.map_nil]
    · intro other ne
      simp only [State.keys, update_of_ne ne]
  · refine .of_keys (fun _ => rfl) rfl rfl rfl (keys_at ?_ ?_)
      (.supported named contact signed.2 stored new)
    · simp only [State.keys, update_self]
    · intro other ne
      simp only [State.keys, update_of_ne ne]

/-! ### Hibernation -/

@[simp] theorem enterHibernation_controlled (duration : Nat) :
    Controls env s (.enterHibernation id caller duration) := by
  simp only [Controls, execRecord.eq_def, enterHibernation, setHibernation, wp_rules]
  intro _ _ _ v found _ _ _ _
  exact ⟨.kept, .kept, .kept, .entered found, Controlled.opened_of_isSome fun _ => rfl⟩

/-! ### Every such call -/

theorem execRecord_controlled (call : RecordCall) (controls : call.controls = true) :
    Controls env s call := by
  cases call with
  | bindPasskeyBiometric | unbindPasskeyBiometric => apply setPasskeyBiometric_controlled
  | _ => first | simp | cases controls

end EthosContracts.TtlVault
