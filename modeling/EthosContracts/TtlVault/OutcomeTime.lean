/-
**The outcomes of the calls that move a deadline**: check-ins, recovery, decay, borrowing and
hibernation.

* A check-in restarts the countdown of a locked vault (`Change.of_restart`). It moves the deadline
  later on the authority of the owner, a delegate or a passkey delegate; it moves it earlier when
  the last check-in lies ahead of the clock, as after `borrow_ttl` or `exit_hibernation`.
* `useBackupCode`, `recoverWithCode`, `requestRecoveryExtension` restart it on other grounds.
* `borrowTtl`, `repayTtlBorrow` move time of a second vault, whose owner need not agree.
-/

import EthosContracts.TtlVault.OutcomeMoney

namespace EthosContracts.TtlVault

open Lib Function List

section Time

variable (env : Env) (s : State) (vaultId id : VaultId) (caller : Address)
variable {call : Call} {v : Vault} (vaultIds : List VaultId) (passkeyHash : Hash)

/-! ### The checks of a check-in -/

theorem assertCheckInCooldown_readonly : (assertCheckInCooldown env id).Readonly := by
  intro s
  simp only [assertCheckInCooldown, wp_rules]
  split <;> simp

theorem validatePasskeyForCheckin_readonly (vault : Vault) (passkeyHash : Hash) :
    (validatePasskeyForCheckin env id vault passkeyHash).Readonly := by
  intro s
  simp [validatePasskeyForCheckin]

theorem assertWithinMaxTtl_readonly (interval : Nat) :
    (assertWithinMaxTtl env interval).Readonly := by
  intro s
  simp [assertWithinMaxTtl]

theorem applyInactivityPenalty_spec (vault : Vault) (originalLastCheckIn : Nat) :
    (applyInactivityPenalty env id vault originalLastCheckIn).wp s fun charged t =>
      Disbursed id (fun _ => True) s t ∧
        ∃ balance, charged = { vault with balance := balance } := by
  unfold applyInactivityPenalty
  split
  · simp only [wp_rules]
    intro _
    refine ⟨fun _ _ _ => ⟨fun _ _ _ _ => ?_, fun _ => ?_⟩, fun _ => ?_⟩
    · exact ⟨.single trivial, _, rfl⟩
    · exact ⟨.refl, vault.balance, rfl⟩
    · exact ⟨.refl, vault.balance, rfl⟩
  · rw [wp_pure]
    exact ⟨.refl, vault.balance, rfl⟩

theorem extends_of_delegate (signed : caller ∈ env.signers)
    (authority : caller = v.owner ∨ isCheckInDelegate s id caller = true) :
    Extends env s id v call := by
  rcases authority with owner | delegate
  · exact .owner (owner ▸ signed)
  · rw [isCheckInDelegate, decide_eq_true_eq] at delegate
    exact .delegate delegate signed

theorem extends_of_passkey {passkeyHash : Hash} (signed : caller ∈ env.signers)
    (valid : isValidPasskeyDelegate env s id passkeyHash caller = true) :
    Extends env s id v call := by
  unfold isValidPasskeyDelegate at valid
  split at valid
  · rename_i delegation stored
    rw [decide_eq_true_eq] at valid
    exact .passkey stored (valid.1 ▸ signed) valid.2
  · cases valid

/-! ### Check-ins of one vault -/

theorem recordCheckIn_spec (v : Vault) (passkeyHash : Hash) :
    (recordCheckIn env id v passkeyHash).wp s fun _ t =>
      v.status = .locked ∧ ∃ u balance, Disbursed id (fun _ => True) s u ∧ t = { s with
          ledger := u.ledger
          payouts := u.payouts
          vaults := update s.vaults id (some { v with
            lastCheckIn := env.now
            beneficiaries := rotatedBeneficiaries env.now
              (s.beneficiaries.rotationSchedule id) v.beneficiaries
            balance := balance })
          checkIns.lastCheckInTime :=
            update s.checkIns.lastCheckInTime id (some env.now) } := by
  simp only [recordCheckIn, wp_rules]
  intro locked
  refine (assertCheckInCooldown_readonly env id).wp fun _ => ?_
  refine (validatePasskeyForCheckin_readonly env id v passkeyHash).wp fun _ => ?_
  refine Tx.wp.mono (applyInactivityPenalty_spec env _ id _ v.lastCheckIn) ?_
  rintro _ t ⟨disbursed, balance, rfl⟩
  refine (assertWithinMaxTtl_readonly env v.checkInInterval).wp fun _ => ?_
  simp only [setLastCheckInTime, wp_rules]
  refine ⟨locked, t, balance, disbursed, ?_⟩
  rw [disbursed.frame]

theorem recordCheckIn_outcome (found : s.vaults id = some v)
    (authorised : Extends env s id v call) (restarted : id ∈ call.restarts)
    (passkeyHash : Hash) (nonces : VaultId → Address → Nat) :
    (recordCheckIn env id v passkeyHash).wp { s with checkIns.delegateNonce := nonces }
      fun _ t => Outcome env call s t := by
  refine Tx.wp.mono (recordCheckIn_spec env _ id v passkeyHash) ?_
  rintro _ t ⟨locked, u, balance, disbursed, rfl⟩
  refine ⟨fun _ => ?_, Rotates.controlled ?_ env call, rfl⟩
  · exact .of_disbursed found rfl rfl rfl disbursed rfl rfl (fun _ _ => .inl locked)
      (.of_restart locked locked rfl rfl authorised (.inr restarted))
  · exact Rotates.refl.save env found locked rfl rfl rfl rfl

theorem checkIn_outcome (restarted : id ∈ call.restarts) (passkeyHash : Hash) (nonce : Nat) :
    (checkIn env id caller passkeyHash nonce).wp s fun _ t => Outcome env call s t := by
  simp only [checkIn, useDelegateNonce, wp_rules]
  rintro _ ⟨_, signed⟩ v found _ authority
  have authorised : Extends env s id v call := by
    rcases authority with owner | delegate | passkey
    · exact extends_of_delegate env s id caller signed (.inl owner)
    · exact extends_of_delegate env s id caller signed (.inr delegate)
    · exact extends_of_passkey env s id caller signed passkey
  refine ⟨fun _ _ _ => ?_, fun _ => ?_⟩
  · exact recordCheckIn_outcome env s id found authorised restarted passkeyHash _
  · exact recordCheckIn_outcome env s id found authorised restarted passkeyHash
      s.checkIns.delegateNonce

@[simp] theorem checkInWithPow_outcome (nonce difficulty : Nat) :
    HasOutcome env s (.checkInWithPow id caller passkeyHash nonce difficulty) := by
  simp only [HasOutcome, exec.eq_def, checkInWithPow, wp_rules]
  rintro _ ⟨_, signed⟩ v found _ authority locked
  refine (validatePasskeyForCheckin_readonly env id v passkeyHash).wp fun _ => ?_
  intro _
  refine (assertWithinMaxTtl_readonly env v.checkInInterval).wp fun _ => ?_
  exact .of_save found rfl rfl rfl rfl (.of_restart locked locked rfl rfl
    (extends_of_delegate env s id caller signed authority) (.inr mem_cons_self))

@[simp] theorem biometricCheckIn_outcome (biometricHash : Hash) :
    HasOutcome env s (.biometricCheckIn id caller passkeyHash biometricHash) := by
  simp only [HasOutcome, exec.eq_def, biometricCheckIn, wp_rules]
  rintro _ ⟨_, signed⟩ v found _ authority locked
  refine (validatePasskeyForCheckin_readonly env id v passkeyHash).wp fun _ => ?_
  intro _ _ _
  exact .of_save found rfl rfl rfl rfl (.of_restart locked locked rfl rfl
    (extends_of_delegate env s id caller signed authority) (.inr mem_cons_self))

/-! ### Codes and the recovery contact -/

theorem consumeCode_readonly (codeHash : Hash) (codes : List HashedBackupCode) :
    (consumeCode codeHash codes).Readonly := by
  induction codes with
  | nil =>
    intro s
    simp [consumeCode]
  | cons code rest ih =>
    intro s
    simp only [consumeCode, wp_rules]
    exact ⟨fun _ _ => trivial, fun _ => ih.wp fun _ => rfl⟩

theorem loadBackupCodes_readonly : (loadBackupCodes env id).Readonly := by
  intro s
  simp only [loadBackupCodes, wp_rules]
  split <;> simp

@[simp] theorem useBackupCode_outcome (codeHash : Hash) :
    HasOutcome env s (.useBackupCode id codeHash) := by
  simp only [HasOutcome, exec.eq_def, useBackupCode, wp_rules]
  intro v found locked
  refine (loadBackupCodes_readonly env id).wp fun codes => ?_
  refine (consumeCode_readonly codeHash codes).wp fun _ => ?_
  exact .of_save found rfl rfl rfl rfl
    (.of_restart locked locked rfl rfl .backup (.inr mem_cons_self))

theorem Effect.forget_code {t : State} (effect : Effect env call s t) (id : VaultId) :
    Effect env call s { t with
      checkIns.recoveryCodeHash := update t.checkIns.recoveryCodeHash id none } := by
  refine { effect with codes := fun other hash stored => ?_ }
  simp only [State.registry, State.core, Core.registry, update_apply] at stored
  split_ifs at stored
  exact effect.codes other hash stored

@[simp] theorem recoverWithCode_outcome (recoveryCode : Bytes) (newPasskeyProof : Hash) :
    HasOutcome env s (.recoverWithCode id recoveryCode newPasskeyProof) := by
  simp only [HasOutcome, exec.eq_def, recoverWithCode, setVaultPasskeys, setRecoveryCodeHash, wp_rules]
  rintro v found locked _ stored rfl
  have restarted : Effect env (.recoverWithCode id recoveryCode newPasskeyProof) s { s with
      vaults := update s.vaults id
        (some { v with passkeyHash := some newPasskeyProof, lastCheckIn := env.now })
      checkIns.vaultPasskeys := update s.checkIns.vaultPasskeys id
        [⟨newPasskeyProof, env.now, none⟩] } :=
    .of_save found rfl rfl rfl rfl
      (.of_restart locked locked rfl rfl (.secret stored) (.inr mem_cons_self))
  refine ⟨fun _ => restarted.forget_code env s id, .of_keys (isSome_save found rfl)
    (tenure_kept found rfl rfl rfl) rfl rfl (keys_at ?_ ?_) (.recovered found stored), rfl⟩
  · simp only [State.keys, update_self, map_cons, map_nil, Option.bind_some]
  · intro other ne
    simp only [State.keys, update_of_ne ne]

@[simp] theorem requestRecoveryExtension_outcome :
    HasOutcome env s (.requestRecoveryExtension id caller) := by
  simp only [HasOutcome, exec.eq_def, requestRecoveryExtension, wp_rules]
  intro _ v found locked
  exact .of_save found rfl rfl rfl rfl
    (.of_restart locked locked rfl rfl .extension (.inr mem_cons_self))

/-! ### Check-ins of several vaults -/

/-- The countdown starts again, and nothing else about time or status changes. -/
def Restarted (v w : Vault) : Prop :=
  w.lastCheckIn = env.now ∧ w.checkInInterval = v.checkInInterval ∧ w.status = v.status

variable {body : VaultId → Contract PUnit} {ids : List VaultId}

theorem restartEach_spec
    (one : ∀ id s, (body id).wp s fun _ t => ∃ v w, s.vaults id = some v ∧ Restarted env v w ∧
      t = { s with vaults := update s.vaults id (some w) })
    (ids : List VaultId) : ∀ s, (ids.forM body).wp s fun _ t =>
      (∃ vaults, t = { s with vaults := vaults }) ∧ ∀ id, (id ∉ ids → t.vaults id = s.vaults id) ∧
        (id ∈ ids → ∃ v w, s.vaults id = some v ∧ t.vaults id = some w ∧ Restarted env v w) := by
  induction ids with
  | nil =>
    intro s
    rw [wp_forM_nil]
    exact ⟨⟨s.vaults, rfl⟩, fun id => ⟨fun _ => rfl, nofun⟩⟩
  | cons head rest ih =>
    intro s
    rw [wp_forM_cons]
    refine (one head s).mono ?_
    rintro _ _ ⟨v, w, found, restarted, rfl⟩
    refine (ih _).mono ?_
    rintro _ _ ⟨⟨vaults, rfl⟩, later⟩
    dsimp only at later
    refine ⟨⟨vaults, rfl⟩, fun id => ⟨fun absent => ?_, fun member => ?_⟩⟩
    · obtain ⟨ne, below⟩ := not_or.mp (fun inside => absent (mem_cons.mpr inside))
      rw [← update_of_ne ne (some w) s.vaults]
      exact (later id).1 below
    · by_cases below : id ∈ rest
      · obtain ⟨v', w', found', stored, restarted'⟩ := (later id).2 below
        by_cases same : id = head
        · subst same
          rw [update_self] at found'
          obtain rfl := Option.some.inj found'
          exact ⟨v, w', found, stored, restarted'.1, restarted'.2.1.trans restarted.2.1,
            restarted'.2.2.trans restarted.2.2⟩
        · rw [update_of_ne same] at found'
          exact ⟨v', w', found', stored, restarted'⟩
      · obtain rfl : id = head := by
          rcases mem_cons.mp member with same | inside
          · exact same
          · exact absurd inside below
        refine ⟨v, w, found, ?_, restarted⟩
        rw [← update_self id (some w) s.vaults]
        exact (later id).1 below

theorem restartEach_effect (call : Call)
    (one : ∀ id s, (body id).wp s fun _ t => ∃ v w, s.vaults id = some v ∧ Restarted env v w ∧
      t = { s with vaults := update s.vaults id (some w) })
    (checked : ∀ id ∈ ids, ∃ v, s.vaults id = some v ∧ v.status = .locked ∧
      Extends env s id v call ∧ (v.owner ∈ env.signers ∨ id ∈ call.restarts)) :
    (ids.forM body).wp s fun _ t => Effect env call s t := by
  refine (restartEach_spec env one ids s).mono ?_
  rintro _ _ ⟨⟨vaults, rfl⟩, each⟩
  refine .of_vaults ?_ ?_ rfl rfl ⟨[], (append_nil _).symm, nofun⟩
  · intro id v found
    by_cases member : id ∈ ids
    · obtain ⟨v', w, found', stored, restarted⟩ := (each id).2 member
      obtain ⟨v'', found'', locked, authorised, authority⟩ := checked id member
      cases found.symm.trans found'
      cases found.symm.trans found''
      exact ⟨w, stored, .of_restart locked (restarted.2.2.trans locked) restarted.1 restarted.2.1
        authorised authority⟩
    · exact ⟨v, ((each id).1 member).trans found, .refl⟩
  · intro id absent
    have unlisted : id ∉ ids := by
      intro member
      obtain ⟨v, found, -⟩ := checked id member
      rw [absent] at found
      cases found
    exact ((each id).1 unlisted).trans absent

theorem touchVault_spec (id : VaultId) (s : State) :
    (touchVault env id).wp s fun _ t => ∃ v w, s.vaults id = some v ∧ Restarted env v w ∧
      t = { s with vaults := update s.vaults id (some w) } ∧ w.control = v.control := by
  simp only [touchVault, wp_rules]
  intro v found
  exact ⟨v, { v with lastCheckIn := env.now }, found, ⟨rfl, rfl, rfl⟩, rfl, rfl⟩

theorem touchVaults_outcome (checked : ∀ id ∈ ids, ∃ v, s.vaults id = some v ∧ v.status = .locked ∧
      Extends env s id v call ∧ (v.owner ∈ env.signers ∨ id ∈ call.restarts)) :
    (ids.forM fun id => touchVault env id).wp s fun _ t => Outcome env call s t := by
  have kept : (ids.forM fun id => touchVault env id).wp s fun _ t =>
      Unchanged s t ∧ t.rest call = s.rest call := by
    refine wp_forM_invariant (fun t => Unchanged s t ∧ t.rest call = s.rest call)
      (fun id _ t before => ?_) s
      ⟨.refl, rfl⟩
    refine (touchVault_spec env id t).mono ?_
    rintro _ _ ⟨v, w, found, -, rfl, control⟩
    exact ⟨before.1.trans (.of_save found rfl control rfl), before.2⟩
  refine ((restartEach_effect env s call (fun id s => ?_) checked).and kept).mono ?_
  · refine (touchVault_spec env id s).mono ?_
    rintro _ t ⟨v, w, found, restarted, same, -⟩
    exact ⟨v, w, found, restarted, same⟩
  · rintro _ t ⟨effect, unchanged, rest⟩
    exact .of_effect effect unchanged rest

/-- What the first loops of the owner's batches check. -/
def OwnedLocked (id : VaultId) : Prop :=
  ∃ v, s.vaults id = some v ∧ caller = v.owner ∧ v.status = .locked

/-- What the first loop of `batch_check_in_v2` checks. -/
def DelegatedLocked (id : VaultId) : Prop :=
  ∃ v, s.vaults id = some v ∧ (caller = v.owner ∨ isCheckInDelegate s id caller = true) ∧
    v.status = .locked

@[simp] theorem batchCheckIn_outcome : HasOutcome env s (.batchCheckIn vaultIds caller) := by
  simp only [HasOutcome, exec.eq_def, batchCheckIn, wp_rules]
  rintro _ ⟨_, signed⟩
  refine Tx.wp.mono (wp_forM_checks (OwnedLocked s caller) fun id => ?_) ?_
  · simp only [wp_rules]
    intro v found _ owner locked
    exact ⟨trivial, v, found, owner, locked⟩
  · rintro _ s' ⟨rfl, checked⟩
    refine ((restartEach_effect env s' (.batchCheckIn vaultIds caller) (fun id s => ?_)
      fun id member => ?_).and
      (wp_forM_invariant (fun t => Rotates s' t ∧ t.sideBooks = s'.sideBooks)
        (fun id member t rotates => ?_) s' ⟨.refl, rfl⟩)).mono ?_
    · simp only [wp_rules]
      intro v found
      refine ⟨v, _, found, ?_, rfl⟩
      exact ⟨rfl, rfl, rfl⟩
    · obtain ⟨v, found, owner, locked⟩ := checked id member
      have ownerSigned : v.owner ∈ env.signers := owner ▸ signed
      exact ⟨v, found, locked, .owner ownerSigned, .inl ownerSigned⟩
    · simp only [wp_rules]
      intro v found
      obtain ⟨earlier, addresses, foundEarlier, same⟩ := rotates.1.before found
      obtain ⟨checkedVault, foundChecked, -, locked⟩ := checked id member
      cases foundEarlier.symm.trans foundChecked
      have status : v.status = .locked := (congrArg Terms.status same).trans locked
      exact ⟨rotates.1.save env found status rfl rfl rfl rfl, rotates.2⟩
    · rintro _ t ⟨effect, rotates, side⟩
      exact ⟨fun _ => effect, rotates.controlled env _, congrFun side _⟩

@[simp] theorem batchCheckInV2_outcome :
    HasOutcome env s (.batchCheckInV2 vaultIds caller passkeyHash) := by
  simp only [HasOutcome, exec.eq_def, batchCheckInV2, wp_rules]
  rintro _ ⟨_, signed⟩
  refine Tx.wp.mono (wp_forM_checks (DelegatedLocked s caller) fun id => ?_) ?_
  · simp only [wp_rules]
    intro v found _ authority locked
    refine (validatePasskeyForCheckin_readonly env id v passkeyHash).wp fun _ => ?_
    refine (assertWithinMaxTtl_readonly env v.checkInInterval).wp fun _ => ?_
    exact ⟨rfl, v, found, authority, locked⟩
  · rintro _ _ ⟨rfl, checked⟩
    refine touchVaults_outcome env _ fun id member => ?_
    obtain ⟨v, found, authority, locked⟩ := checked id member
    exact ⟨v, found, locked, extends_of_delegate env _ id caller signed authority, .inr member⟩

@[simp] theorem syncVaultTtls_outcome : HasOutcome env s (.syncVaultTtls vaultIds caller) := by
  simp only [HasOutcome, exec.eq_def, syncVaultTtls, wp_rules]
  rintro _ ⟨_, signed⟩
  refine Tx.wp.mono (wp_forM_checks (OwnedLocked s caller) fun id => ?_) ?_
  · simp only [wp_rules]
    intro v found owner locked
    refine (assertWithinMaxTtl_readonly env v.checkInInterval).wp fun _ => ?_
    exact ⟨rfl, v, found, owner, locked⟩
  · rintro _ _ ⟨rfl, checked⟩
    refine touchVaults_outcome env _ fun id member => ?_
    obtain ⟨v, found, owner, locked⟩ := checked id member
    have ownerSigned : v.owner ∈ env.signers := owner ▸ signed
    exact ⟨v, found, locked, .owner ownerSigned, .inl ownerSigned⟩

/-! ### The owner's adjustments -/

@[simp] theorem updateCheckInInterval_outcome (newInterval : Nat) :
    HasOutcome env s (.updateCheckInInterval id newInterval) := by
  simp only [HasOutcome, exec.eq_def, updateCheckInInterval, wp_rules]
  rintro _ _ _ _ v found ⟨_, signed⟩ locked
  refine ⟨fun _ => .of_save found rfl rfl rfl rfl (.of_owner locked locked signed),
    .of_tenure found rfl rfl rfl rfl rfl rfl ?_, rfl⟩
  exact .retimed found (.inl ⟨locked, rfl⟩)

theorem getTtlRemaining_readonly : (getTtlRemaining env id).Readonly := by
  intro s
  simp only [getTtlRemaining, wp_core]
  split <;> simp

@[simp] theorem applyTtlDecay_outcome : HasOutcome env s (.applyTtlDecay id) := by
  simp only [HasOutcome, exec.eq_def, applyTtlDecay, wp_rules]
  rintro v found locked ⟨_, signed⟩
  refine ⟨fun _ => ?_, fun _ _ => ⟨fun _ => ?_, fun _ _ _ _ _ _ => ?_⟩⟩
  · exact (getTtlRemaining_readonly env id).wp fun _ => .of_frame rfl rfl rfl
  · exact (getTtlRemaining_readonly env id).wp fun _ => .of_frame rfl rfl rfl
  · exact .of_save found rfl rfl rfl rfl (.of_owner locked locked signed)

@[simp] theorem accelerateTtlDecay_outcome (accelerateBySeconds : Nat) :
    HasOutcome env s (.accelerateTtlDecay id caller accelerateBySeconds) := by
  simp only [HasOutcome, exec.eq_def, accelerateTtlDecay, wp_rules]
  rintro _ ⟨_, signed⟩ _ _ v found rfl locked _ _
  exact .of_save found rfl rfl rfl rfl (.of_owner locked locked signed)

@[simp] theorem exitHibernation_outcome : HasOutcome env s (.exitHibernation id caller) := by
  simp only [HasOutcome, exec.eq_def, exitHibernation, setHibernation, wp_rules]
  rintro ⟨_, signed⟩ v found rfl locked entry _
  have saved : Unchanged s { s with
      vaults := update s.vaults id (some { v with
        lastCheckIn := saturatingAdd v.lastCheckIn
          (min (env.now - entry.startedAt) entry.durationSeconds) }) } :=
    .of_save found rfl rfl rfl
  exact ⟨fun _ => .of_save found rfl rfl rfl rfl (.of_owner locked locked signed),
    ⟨saved.tenure ▸ .kept, .kept, saved.keys ▸ .kept, .exited,
      Controlled.opened_of_isSome saved.isSome⟩, rfl⟩

/-! ### Borrowing -/

theorem le_saturatingAdd (a b : Nat) : a ≤ saturatingAdd a b := Nat.le_add_right a _

@[simp] theorem borrowTtl_outcome (lenderVaultId : VaultId) (borrowSeconds : Nat) :
    HasOutcome env s (.borrowTtl vaultId lenderVaultId caller borrowSeconds) := by
  simp only [HasOutcome, exec.eq_def, borrowTtl, setTtlBorrow, wp_rules]
  rintro _ ⟨_, signed⟩ ⟨_, ne⟩ _ borrower foundBorrower rfl lockedBorrower lender foundLender
    lockedLender _ _
  refine .of_vaults ?_ ?_ rfl ⟨[], (append_nil _).symm, forall_mem_nil _⟩
  · intro id v found
    by_cases isLender : id = lenderVaultId
    · subst isLender
      cases foundLender.symm.trans found
      refine ⟨_, update_self .., ⟨.inr (.inl lockedLender), fun cancelled => ?_,
        .inr (.inl lockedLender), fun later => ?_, fun earlier => ?_, .inl lockedLender⟩, rfl⟩
      · cases lockedLender.symm.trans cancelled
      · simp only [Vault.deadline] at later
        omega
      · simp only [Vault.deadline] at earlier
        exact .borrow (by omega)
    · simp only [update_of_ne isLender]
      by_cases isBorrower : id = vaultId
      · subst isBorrower
        cases foundBorrower.symm.trans found
        exact ⟨_, update_self .., .of_owner lockedBorrower lockedBorrower signed, rfl⟩
      · rw [update_of_ne isBorrower]
        exact ⟨v, found, .refl, rfl⟩
  · intro id absent
    have notLender : id ≠ lenderVaultId := by
      rintro rfl
      cases foundLender.symm.trans absent
    have notBorrower : id ≠ vaultId := by
      rintro rfl
      cases foundBorrower.symm.trans absent
    simp only [update_of_ne notLender, update_of_ne notBorrower]
    exact absent

@[simp] theorem repayTtlBorrow_outcome : HasOutcome env s (.repayTtlBorrow id caller) := by
  simp only [HasOutcome, exec.eq_def, repayTtlBorrow, setTtlBorrow, wp_rules]
  intro _ _ _ _ record stored _ lender found
  refine .of_save found rfl rfl rfl rfl ⟨.inl rfl, empty_of_status rfl fun _ zero => .inl zero,
    .inl rfl, fun _ => .repayment stored rfl, fun earlier => ?_, .inr ⟨rfl, .inl rfl⟩⟩
  have grows := le_saturatingAdd lender.lastCheckIn record.borrowedSeconds
  simp only [Vault.deadline] at earlier
  omega

end Time

end EthosContracts.TtlVault
