/-
**Who moves a vault's deadline.**
-/

import EthosContracts.TtlVault.ControlTerms

namespace EthosContracts.TtlVault

open Lib List

variable (env : Env) (s : State) (id : VaultId) (earlier : History)

/-! ### What the owner has put on record -/

/-- The event is signed by `owner`, whose vault it is then. -/
def SignedByOwner (event : VaultEvent) (owner : Address) : Prop :=
  (∃ v, event.before.vaults id = some v ∧ v.owner = owner) ∧ owner ∈ event.input.env.signers

/-- The owner names a delegate. -/
def AddsDelegate (address owner : Address) (event : VaultEvent) : Prop :=
  SignedByOwner id event owner ∧ event.input.call = .addCheckInDelegate id owner address

/-- The owner delegates a passkey. -/
def DelegatesPasskey (passkeyHash : Hash) (delegation : PasskeyDelegation) (owner : Address)
    (event : VaultEvent) : Prop :=
  SignedByOwner id event owner ∧ event.input.call =
    .delegatePasskey id owner passkeyHash delegation.delegate delegation.expiresAt

/-- The owner has the hash of a recovery code stored. -/
def StoresCodeHash (hash : Hash) (owner : Address) (event : VaultEvent) : Prop :=
  ∃ code, SignedByOwner id event owner ∧ event.input.call = .generateRecoveryCode id code ∧
    hash = event.input.env.sha256 code

/-- The owner has named the contact, and nobody another one since. The contract stores no contact.
-/
def NamedContact (owner address : Address) : Prop :=
  ∃ front event back, earlier = front ++ event :: back ∧ SignedByOwner id event owner ∧
    event.input.call = .record (.setRecoveryContact id owner address) ∧
    ∀ later ∈ back, ∀ caller contact,
      later.input.call ≠ .record (.setRecoveryContact id caller contact)

/-! ### The deadline moves later -/

/-- **Proof of life**: what lets an event extend the deadline of the vault `v`. Delegates, passkeys
and codes are on record when the event happens, and were put there by the owner that the vault has
then. -/
inductive ProofOfLife (id : VaultId) (v : Vault) (earlier : History) (event : VaultEvent) : Prop
  | owner (signed : v.owner ∈ event.input.env.signers)
  | delegate {address} (listed : address ∈ event.before.checkIns.checkInDelegates id)
      (registered : ∃ added ∈ earlier, AddsDelegate id address v.owner added)
      (signed : address ∈ event.input.env.signers)
  | passkey {passkeyHash delegation}
      (stored : event.before.checkIns.passkeyDelegation id passkeyHash = some delegation)
      (valid : event.input.env.now < delegation.expiresAt)
      (registered : ∃ added ∈ earlier, DelegatesPasskey id passkeyHash delegation v.owner added)
      (signed : delegation.delegate ∈ event.input.env.signers)
  | contact {address} (named : NamedContact id earlier v.owner address)
      (signed : address ∈ event.input.env.signers)
  | secret {code proof} (presented : event.input.call = .recoverWithCode id code proof)
      (stored : event.before.checkIns.recoveryCodeHash id = some (event.input.env.sha256 code))
      (registered : ∃ added ∈ earlier,
        StoresCodeHash id (event.input.env.sha256 code) v.owner added)

/-- **Only proof of life extends the switch**, along a run. -/
def OnlyProofOfLife (history : History) : Prop :=
  ∀ earlier event later, history = earlier ++ event :: later →
    ∀ id v w, event.before.vaults id = some v → v.status = .locked →
      event.after.vaults id = some w → v.deadline < w.deadline → ProofOfLife id v earlier event

/-- The owner of the stored vault signs. -/
def OwnerSigns (env : Env) : Prop :=
  ∀ v ∈ s.vaults id, v.owner ∈ env.signers

/-- A condition on one step: the calls that ask for no authority of the owner have it. -/
def Attested (s : State) (env : Env) : Call → Prop
  | .requestRecoveryExtension id caller => ∀ v ∈ s.vaults id,
    v.owner ∈ env.signers ∨ NamedContact id earlier v.owner caller
  | .useBackupCode id _ => OwnerSigns s id env
  | .repayTtlBorrow borrowerVaultId _ =>
    ∀ record ∈ s.checkIns.ttlBorrow borrowerVaultId, OwnerSigns s record.lenderVaultId env
  | _ => True

/-- A condition on one step: a call that changes the owner of a vault finds its records `clear`. -/
def HandsOver (clear : State → VaultId → Prop) (s : State) (call : Call) : Prop :=
  ∀ id newOwner, call.newOwner s id = some newOwner → clear s id ∨ ∀ v ∈ s.vaults id, v.owner = newOwner

/-- Nobody but the owner can check in. -/
structure State.Unattended (s : State) (id : VaultId) : Prop where
  delegates : s.checkIns.checkInDelegates id = []
  passkeys : ∀ passkeyHash, s.checkIns.passkeyDelegation id passkeyHash = none
  code : s.checkIns.recoveryCodeHash id = none

section Provenance

variable {clear : State → VaultId → Prop} {host : Host} {start s : State} {history : History}

variable {id : VaultId}

theorem HandsOver.stays {call : Call} {v : Vault} {newOwner : Address}
    (handsOver : HandsOver clear s call) (kept : ¬ clear s id) (found : s.vaults id = some v)
    (taken : call.newOwner s id = some newOwner) : v.owner = newOwner :=
  (handsOver id newOwner taken).elim (fun clear => absurd clear kept) fun same => same v found

variable (run : ContractRun host start history s) (regular : start.Regular)
  (handsOver : ∀ event ∈ history, HandsOver clear event.before event.input.call)
include run regular handsOver

/-- **What is on record was put there by the present owner**, if only owners put it there and none
of it is left at a change of owner. By induction on the run: the owner stays as long as the record
does. -/
theorem run_registered (holds : State → Prop) (made : Address → VaultEvent → Prop)
    (fresh : ¬ holds start) (clears : ∀ s, clear s id → ¬ holds s)
    (new : ∀ event ∈ history, holds event.after → holds event.before ∨ ∃ v,
      event.before.vaults id = some v ∧ event.input.call.newOwner event.before id = none ∧
        made v.owner event)
    (now : holds s) : ∃ v, s.vaults id = some v ∧ ∃ event ∈ history, made v.owner event := by
  induction run with
  | nil => exact absurd now fresh
  | @snoc front u t input before stepped ih =>
    obtain ⟨earlier, last⟩ := forall_mem_concat.mp new
    obtain ⟨passed, here⟩ := forall_mem_concat.mp handsOver
    have counted := (run_regular before regular).counted
    have controlled := step_controlled stepped
    rcases last now with old | ⟨v, found, stays, made⟩
    · obtain ⟨v, found, event, member, made⟩ := ih passed earlier old
      obtain ⟨w, present, same⟩ := controlled.owner counted found fun _ taken =>
        here.stays (fun clear => clears u clear old) found taken
      exact ⟨w, present, event, mem_append_left _ member, same ▸ made⟩
    · obtain ⟨w, present, same⟩ := controlled.owner counted found fun _ taken => by
        cases stays.symm.trans taken
      exact ⟨w, present, _, mem_concat_self, same ▸ made⟩

theorem run_delegates {address : Address} (fresh : address ∉ start.checkIns.checkInDelegates id)
    (clears : ∀ s, clear s id → s.checkIns.checkInDelegates id = [])
    (listed : address ∈ s.checkIns.checkInDelegates id) :
    ∃ v, s.vaults id = some v ∧ ∃ event ∈ history, AddsDelegate id address v.owner event := by
  refine run_registered run regular handsOver (address ∈ ·.checkIns.checkInDelegates id) _ fresh
    (fun s clear listed => ?_) (fun event member listed => ?_) listed
  · rw [clears s clear] at listed
    cases listed
  rcases (run_effect run regular event member).delegates id address listed with
    before | ⟨v, found, call, signed⟩
  · exact .inl before
  · exact .inr ⟨v, found, by rw [call]; rfl, ⟨⟨v, found, rfl⟩, signed⟩, call⟩

theorem run_passkeys {passkeyHash : Hash} {delegation : PasskeyDelegation}
    (fresh : start.checkIns.passkeyDelegation id passkeyHash = none)
    (clears : ∀ s, clear s id → s.checkIns.passkeyDelegation id passkeyHash = none)
    (stored : s.checkIns.passkeyDelegation id passkeyHash = some delegation) :
    ∃ v, s.vaults id = some v ∧
      ∃ event ∈ history, DelegatesPasskey id passkeyHash delegation v.owner event := by
  refine run_registered run regular handsOver
    (·.checkIns.passkeyDelegation id passkeyHash = some delegation) _ (by simp [fresh])
    (fun s clear => by simp [clears s clear]) (fun event member stored => ?_) stored
  rcases (run_effect run regular event member).passkeys id passkeyHash delegation stored with
    before | ⟨v, found, call, signed⟩
  · exact .inl before
  · exact .inr ⟨v, found, by rw [call]; rfl, ⟨⟨v, found, rfl⟩, signed⟩, call⟩

theorem run_codes {hash : Hash} (fresh : start.checkIns.recoveryCodeHash id = none)
    (clears : ∀ s, clear s id → s.checkIns.recoveryCodeHash id = none)
    (stored : s.checkIns.recoveryCodeHash id = some hash) :
    ∃ v, s.vaults id = some v ∧ ∃ event ∈ history, StoresCodeHash id hash v.owner event := by
  refine run_registered run regular handsOver (·.checkIns.recoveryCodeHash id = some hash) _
    (by simp [fresh]) (fun s clear => by simp [clears s clear]) (fun event member kept => ?_) stored
  rcases (run_effect run regular event member).codes id hash kept with
    before | ⟨v, code, found, call, same, signed⟩
  · exact .inl before
  · exact .inr ⟨v, found, by rw [call]; rfl, code, ⟨⟨v, found, rfl⟩, signed⟩, call, same⟩

end Provenance

theorem requestRecoveryExtension_signed (caller : Address) :
    (requestRecoveryExtension env id caller).wp s fun _ _ => caller ∈ env.signers := by
  rw [requestRecoveryExtension, wp_bind, requireAuth, wp_ensure]
  rintro ⟨-, signed⟩
  exact .const signed

/-- **Only proof of life extends the switch**, in every run whose steps meet the conditions. -/
theorem onlyProofOfLife_of_attested {host : Host} {xlmToken admin : Address}
    {ledger : Ledger Address Address} {history : History} {s : State}
    (run : ContractRun host (initialState xlmToken admin ledger) history s)
    (attested : ∀ earlier event later, history = earlier ++ event :: later →
      Attested earlier event.before event.input.env event.input.call)
    (handsOver : ∀ event ∈ history, HandsOver State.Unattended event.before event.input.call) :
    OnlyProofOfLife history := by
  intro earlier event later whole id v w found locked present moved
  have regular := initialState_regular xlmToken admin ledger
  have member : event ∈ history := by
    rw [whole]
    exact mem_append_cons_self
  have effect := run_effect run regular event member
  have stepped := run.stepped event member
  have condition := attested earlier event later whole
  obtain ⟨middle, before, rest⟩ := run.split earlier (event :: later) whole
  obtain ⟨rfl, -, -⟩ := rest.uncons
  rw [whole, forall_mem_append] at handsOver
  obtain ⟨w', present', change⟩ := effect.vaults id v found
  cases present.symm.trans present'
  have reason := change.later moved
  generalize called : event.input.call = call at reason condition
  cases reason with
  | owner signed => exact .owner signed
  | delegate listed signed =>
    obtain ⟨u, found', registered⟩ := run_delegates before regular handsOver.1 not_mem_nil
      (fun _ clear => clear.delegates) listed
    cases found.symm.trans found'
    exact .delegate listed registered signed
  | passkey stored signed valid =>
    obtain ⟨u, found', registered⟩ := run_passkeys before regular handsOver.1 rfl
      (fun _ clear => clear.passkeys _) stored
    cases found.symm.trans found'
    exact .passkey stored valid registered signed
  | secret stored =>
    obtain ⟨u, found', registered⟩ := run_codes before regular handsOver.1 rfl
      (fun _ clear => clear.code) stored
    cases found.symm.trans found'
    exact .secret called stored registered
  | @extension caller =>
    have signed : caller ∈ event.input.env.signers := by
      refine requestRecoveryExtension_signed event.input.env event.before id caller () event.after ?_
      rw [← stepped.2, called]
      rfl
    rcases condition v found with owner | contact
    · exact .owner owner
    · exact .contact contact signed
  | backup => exact .owner (condition v found)
  | repayment stored lender =>
    have signs := condition _ stored
    rw [lender] at signs
    exact .owner (signs v found)

/-- The vault changes hands before its owner registers anybody. -/
def attestedExtensions : List Invocation :=
  [⟨plainEnv 1000 [⟨9⟩], .createVault ⟨9⟩ ⟨4⟩ 86400 none⟩,
   ⟨plainEnv 1000 [⟨9⟩], .transferOwnership 1 ⟨9⟩ ⟨3⟩⟩,
   ⟨plainEnv 1001 [⟨3⟩], .record (.setRecoveryContact 1 ⟨3⟩ ⟨6⟩)⟩,
   ⟨plainEnv 1002 [⟨3⟩], .addCheckInDelegate 1 ⟨3⟩ ⟨5⟩⟩,
   ⟨plainEnv 1003 [⟨3⟩], .generateRecoveryCode 1 [7]⟩,
   ⟨plainEnv 2000 [⟨5⟩], .checkIn 1 ⟨5⟩ [] 0⟩,
   ⟨plainEnv 3000 [], .recoverWithCode 1 [7] [8]⟩]

def contactExtension : VaultEvent :=
  nextEvent fundedState attestedExtensions ⟨plainEnv 4000 [⟨6⟩], .requestRecoveryExtension 1 ⟨6⟩⟩

theorem onlyProofOfLife_attestedExtensions :
    (contactExtension.before.vaults 1).map (fun v => (v.owner, v.deadline)) = some (⟨3⟩, 89400) ∧
      (contactExtension.after.vaults 1).map Vault.deadline = some 90400 ∧
      OnlyProofOfLife ((replay fundedState attestedExtensions).1 ++ [contactExtension]) := by
  refine ⟨rfl, rfl, onlyProofOfLife_of_attested
    (.snoc (replay_run fundedState attestedExtensions ?_) ⟨rfl, rfl⟩) ?_ ?_⟩
  · simp [attestedExtensions, plainEnv]
  · intro earlier event later whole
    rcases concat_eq_split.mp whole with ⟨rfl, rfl, -⟩ | ⟨before, -, same⟩
    · intro v found
      cases found
      refine .inr ⟨(replay fundedState attestedExtensions).1.take 2, _,
        (replay fundedState attestedExtensions).1.drop 3, rfl,
        ⟨⟨_, rfl, rfl⟩, mem_singleton.mpr rfl⟩, rfl, fun later member => ?_⟩
      rcases member with _ | ⟨_, _ | ⟨_, _ | ⟨_, _ | ⟨_, none⟩⟩⟩⟩
      · exact nofun
      · exact nofun
      · exact nofun
      · exact nofun
      · cases none
    · have harmless : ∀ input ∈ attestedExtensions, ∀ earlier s,
          Attested earlier s input.env input.call := by
        simp [attestedExtensions, Attested]
      have member : event ∈ (replay fundedState attestedExtensions).1 := by
        rw [same]
        exact mem_append_cons_self
      exact harmless _ (replay_inputs fundedState attestedExtensions event member) _ _
  · intro event member id newOwner taken
    rcases member with _ | ⟨_, _ | ⟨_, _ | ⟨_, _ | ⟨_, _ | ⟨_, _ | ⟨_, _ | ⟨_, _ | ⟨_, none⟩⟩⟩⟩⟩⟩⟩⟩
    all_goals try cases taken
    · by_cases same : 1 = id
      · subst same
        exact .inl ⟨rfl, fun _ => rfl, rfl⟩
      · cases (if_neg same).symm.trans taken
    · cases none

def newlyCreated : List Invocation :=
  [⟨plainEnv 1000 [⟨3⟩], .createVault ⟨3⟩ ⟨4⟩ 86400 none⟩]

theorem newlyCreated_call {event : VaultEvent}
    (member : event ∈ (replay fundedState newlyCreated).1) :
    event.input.call = .createVault ⟨3⟩ ⟨4⟩ 86400 none := by
  have input := replay_inputs fundedState newlyCreated event member
  rw [newlyCreated, mem_singleton] at input
  rw [input]

def strangerExtension : VaultEvent :=
  nextEvent fundedState newlyCreated ⟨plainEnv 2000 [⟨9⟩], .requestRecoveryExtension 1 ⟨9⟩⟩

/-- The stranger's call moves the deadline later. -/
theorem strangerExtension_extends :
    PlainRun ((replay fundedState newlyCreated).1 ++ [strangerExtension]) strangerExtension.after ∧
      (strangerExtension.before.vaults 1).map (fun v => (v.owner, v.status, v.deadline)) =
        some (⟨3⟩, .locked, 87400) ∧
      (strangerExtension.after.vaults 1).map Vault.deadline = some 88400 ∧
      ¬ OnlyProofOfLife ((replay fundedState newlyCreated).1 ++ [strangerExtension]) := by
  refine ⟨.snoc (replay_run fundedState newlyCreated ?_) ⟨rfl, rfl⟩, rfl, rfl, fun only => ?_⟩
  · simp [newlyCreated, plainEnv]
  · cases only _ strangerExtension [] rfl 1 _ _ rfl rfl rfl (by decide : 87400 < 88400) with
    | owner signed => cases mem_singleton.mp signed
    | delegate listed => cases listed
    | passkey stored => cases stored
    | contact named =>
      obtain ⟨front, event, back, split, -, call, -⟩ := named
      have member : event ∈ (replay fundedState newlyCreated).1 := by
        rw [split]
        exact mem_append_cons_self
      cases (newlyCreated_call member).symm.trans call
    | secret presented => cases presented

/-! ### The deadline moves earlier -/

/-- **Nobody but the owner shortens a vault's life**, along a run. -/
def OwnerShortens (history : History) : Prop :=
  ∀ event ∈ history,
    (∀ id v w, event.before.vaults id = some v → v.status = .locked →
      event.after.vaults id = some w → w.deadline < v.deadline →
        v.owner ∈ event.input.env.signers) ∧
    ∀ borrowerVaultId lenderVaultId caller borrowSeconds,
      event.input.call = .borrowTtl borrowerVaultId lenderVaultId caller borrowSeconds →
        OwnerSigns event.before lenderVaultId event.input.env

/-- The condition on one step: time is borrowed from a vault of the caller only, and a countdown
that is ahead of the clock is restarted by the owner only. -/
structure Consented (s : State) (env : Env) (call : Call) : Prop where
  lent : ∀ borrowerVaultId lenderVaultId caller borrowSeconds,
    call = .borrowTtl borrowerVaultId lenderVaultId caller borrowSeconds →
      ∀ v ∈ s.vaults lenderVaultId, v.owner = caller
  restarted : ∀ id ∈ call.restarts, ∀ v ∈ s.vaults id,
    v.lastCheckIn ≤ env.now ∨ v.owner ∈ env.signers

theorem borrowTtl_signed (borrowerVaultId lenderVaultId : VaultId) (caller : Address)
    (borrowSeconds : Nat) : (borrowTtl env borrowerVaultId lenderVaultId caller borrowSeconds).wp s
    fun _ _ => caller ∈ env.signers := by
  rw [borrowTtl, wp_bind]
  refine assertNotPaused_readonly.wp fun _ => ?_
  rw [wp_bind, requireAuth, wp_ensure]
  rintro ⟨-, signed⟩
  exact .const signed

/-- **Nobody but the owner shortens a vault's life**, in every run whose steps meet the condition.
-/
theorem ownerShortens_of_consented {host : Host} {xlmToken admin : Address}
    {ledger : Ledger Address Address} {history : History} {s : State}
    (run : ContractRun host (initialState xlmToken admin ledger) history s)
    (consented : ∀ event ∈ history, Consented event.before event.input.env event.input.call) :
    OwnerShortens history := by
  intro event member
  have regular := initialState_regular xlmToken admin ledger
  have effect := run_effect run regular event member
  have stepped := run.stepped event member
  have condition := consented event member
  have lends : ∀ borrowerVaultId lenderVaultId caller borrowSeconds,
      event.input.call = .borrowTtl borrowerVaultId lenderVaultId caller borrowSeconds →
        OwnerSigns event.before lenderVaultId event.input.env := by
    intro borrowerVaultId lenderVaultId caller borrowSeconds called v found
    rw [condition.lent _ _ _ _ called v found]
    refine borrowTtl_signed event.input.env event.before borrowerVaultId lenderVaultId caller
      borrowSeconds () event.after ?_
    rw [← stepped.2, called]
    rfl
  refine ⟨fun id v w found locked present moved => ?_, lends⟩
  obtain ⟨w', present', change⟩ := effect.vaults id v found
  cases present.symm.trans present'
  have reason := change.earlier moved
  generalize called : event.input.call = call at reason
  cases reason with
  | owner signed => exact signed
  | restart restarted ahead =>
    rw [← called] at restarted
    rcases condition.restarted id restarted v found with behind | signed
    · exact absurd ahead (Nat.not_lt.mpr behind)
    · exact signed
  | borrow pos => exact lends _ _ _ _ called v found

def threeVaults : List Invocation :=
  [⟨plainEnv 1000 [⟨3⟩], .createVault ⟨3⟩ ⟨4⟩ 86400 none⟩,
   ⟨plainEnv 1001 [⟨3⟩], .createVault ⟨3⟩ ⟨5⟩ 86400 none⟩,
   ⟨plainEnv 1002 [⟨9⟩], .createVault ⟨9⟩ ⟨5⟩ 86400 none⟩]

theorem threeVaults_run : PlainRun (replay fundedState threeVaults).1
      (replay fundedState threeVaults).2 := by
  refine replay_run fundedState threeVaults ?_
  simp [threeVaults, plainEnv]

def ownLoan : VaultEvent :=
  nextEvent fundedState threeVaults ⟨plainEnv 2000 [⟨3⟩], .borrowTtl 1 2 ⟨3⟩ 500⟩

theorem ownerShortens_ownLoan :
    (ownLoan.before.vaults 2).map Vault.deadline = some 87401 ∧
      (ownLoan.after.vaults 2).map Vault.deadline = some 86901 ∧
      OwnerShortens ((replay fundedState threeVaults).1 ++ [ownLoan]) := by
  refine ⟨rfl, rfl, ownerShortens_of_consented (.snoc threeVaults_run ⟨rfl, rfl⟩) ?_⟩
  intro event member
  rcases member with _ | ⟨_, _ | ⟨_, _ | ⟨_, _ | ⟨_, none⟩⟩⟩⟩
  · exact ⟨nofun, nofun⟩
  · exact ⟨nofun, nofun⟩
  · exact ⟨nofun, nofun⟩
  · refine ⟨fun borrowerVaultId lenderVaultId caller borrowSeconds called => ?_, nofun⟩
    intro v found
    cases called
    cases found
    rfl
  · cases none

def strangerLoan : VaultEvent :=
  nextEvent fundedState threeVaults ⟨plainEnv 2000 [⟨9⟩], .borrowTtl 3 1 ⟨9⟩ 500⟩

/-- The deadline of the first vault moves earlier without its owner. -/
theorem strangerLoan_shortens :
    PlainRun ((replay fundedState threeVaults).1 ++ [strangerLoan]) strangerLoan.after ∧
      (strangerLoan.before.vaults 1).map (fun v => (v.owner, v.status, v.deadline)) =
        some (⟨3⟩, .locked, 87400) ∧
      (strangerLoan.after.vaults 1).map Vault.deadline = some 86900 ∧
      ¬ OwnerShortens ((replay fundedState threeVaults).1 ++ [strangerLoan]) := by
  refine ⟨.snoc threeVaults_run ⟨rfl, rfl⟩, rfl, rfl, fun shortens => ?_⟩
  cases mem_singleton.mp ((shortens strangerLoan mem_concat_self).2 3 1 ⟨9⟩ 500 rfl _ rfl)

end EthosContracts.TtlVault
