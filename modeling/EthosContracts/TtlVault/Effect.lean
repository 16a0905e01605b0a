/-
**What a call can do.**

`Effect env call s t` says once what a successful call may have done between two states; the results
about runs are derived from it, and from nothing else about the calls.

* `Effect.of_update`, `Effect.of_setting`, `Effect.of_open`, `Effect.of_frame`, … — the rules by
  which the effect of a call is established.
-/

import EthosContracts.Lib.Table
import EthosContracts.TtlVault.Frame
import EthosContracts.TtlVault.Payments

namespace EthosContracts.TtlVault

open Lib Function List

/-! ### Who is registered -/

/-- Who may act for an owner, and what is staked. -/
structure Registry where
  checkInDelegates : VaultId → List Address
  passkeyDelegation : VaultId → Hash → Option PasskeyDelegation
  recoveryCodeHash : VaultId → Option Hash
  staking : VaultId → Option TokenStaking

def Core.registry (core : Core) : Registry where
  checkInDelegates := core.checkInDelegates
  passkeyDelegation := core.passkeyDelegation
  recoveryCodeHash := core.recoveryCodeHash
  staking := core.staking

def State.registry (s : State) : Registry := s.core.registry

/-- Nothing is ever staked: the source records a stake of zero. -/
def Registry.Unstaked (registry : Registry) : Prop :=
  ∀ id staking, registry.staking id = some staking → staking.stakedAmount = 0

/-- No vault is stored beyond the counter. -/
def State.Counted (s : State) : Prop := ∀ id, s.vaultCount < id → s.vaults id = none

/-- What every reachable state satisfies. -/
structure State.Regular (s : State) : Prop where
  counted : s.Counted
  unstaked : s.registry.Unstaked

/-! ### Changes of one vault -/

def executedOperation (s : State) (id : VaultId) : Call → Option MultiSigOperation
  | .executeMultisig vaultId proposalId _ =>
    if vaultId = id then (s.multiSig.proposal id proposalId).map (·.operation) else none
  | _ => none

def Call.newBeneficiary (s : State) (id : VaultId) : Call → Option Address
  | .applyBeneficiaryUpdate vaultId _ =>
    if vaultId = id then (s.beneficiaries.pendingBeneficiaryUpdate id).map (·.newBeneficiary)
    else none
  | .executeMultisig vaultId proposalId _ =>
    if vaultId = id then
      (s.multiSig.proposal id proposalId).bind fun proposal =>
        if proposal.operation = .updateBeneficiary then proposal.addressPayload else none
    else none
  | _ => none

def VestingSchedule.unclaimed (schedule : VestingSchedule) : Int :=
  schedule.totalAmount -
    schedule.totalAmount.tdiv schedule.numInstallments * schedule.claimedInstallments

/-- The calls that change the balance of an empty vault without looking at its status. -/
def Refills (s : State) (id : VaultId) : Call → Prop
  | .rollbackWithdrawal vaultId _ _ => vaultId = id
  | .reverseWithdrawal vaultId _ withdrawalId => vaultId = id ∧
    ∃ record, s.withdrawals.reversal id withdrawalId = some record ∧ record.amount ≠ 0
  | .verifyWithdrawalEscrow vaultId _ => vaultId = id ∧
    ∃ escrow, s.withdrawals.escrow id = some escrow ∧ escrow.amount ≠ 0
  | .cancelVestingSchedule vaultId scheduleId _ => vaultId = id ∧
    ∃ schedule, s.vesting.schedule id scheduleId = some schedule ∧ schedule.unclaimed ≠ 0
  | .declineBeneficiaryRole vaultId _ => vaultId = id ∧
    ∃ config schedule, s.vesting.forfeiture id = some config ∧ config.forfeited = false ∧
      s.vesting.schedule id 0 = some schedule ∧ 0 < schedule.unclaimed
  | _ => False

/-- **On whose authority a call may move a deadline later.** -/
inductive Extends (env : Env) (s : State) (id : VaultId) (v : Vault) : Call → Prop
  | owner {call} (signed : v.owner ∈ env.signers) : Extends env s id v call
  | delegate {call delegate} (registered : delegate ∈ s.checkIns.checkInDelegates id)
      (signed : delegate ∈ env.signers) : Extends env s id v call
  | passkey {call passkeyHash delegation}
      (registered : s.checkIns.passkeyDelegation id passkeyHash = some delegation)
      (signed : delegation.delegate ∈ env.signers) (valid : env.now < delegation.expiresAt) :
      Extends env s id v call
  | secret {code proof} (stored : s.checkIns.recoveryCodeHash id = some (env.sha256 code)) :
      Extends env s id v (.recoverWithCode id code proof)
  | extension {caller} : Extends env s id v (.requestRecoveryExtension id caller)
  | backup {codeHash} : Extends env s id v (.useBackupCode id codeHash)
  | repayment {borrowerVaultId caller record}
      (stored : s.checkIns.ttlBorrow borrowerVaultId = some record)
      (lender : record.lenderVaultId = id) :
      Extends env s id v (.repayTtlBorrow borrowerVaultId caller)

/-- The vaults whose countdown a call restarts without the owner's authority. -/
def Call.restarts : Call → List VaultId
  | .checkIn id _ _ _ => [id]
  | .checkInWithGeo id _ _ => [id]
  | .checkInWithPow id _ _ _ _ => [id]
  | .biometricCheckIn id _ _ _ => [id]
  | .batchCheckInV2 vaultIds _ _ => vaultIds
  | .useBackupCode id _ => [id]
  | .recoverWithCode id _ _ => [id]
  | .requestRecoveryExtension id _ => [id]
  | _ => []

/-- **On whose authority a call may move a deadline earlier.** -/
inductive Shortens (env : Env) (id : VaultId) (v : Vault) : Call → Prop
  | owner {call} (signed : v.owner ∈ env.signers) : Shortens env id v call
  | restart {call} (restarted : id ∈ call.restarts) (ahead : env.now < v.lastCheckIn) :
      Shortens env id v call
  | borrow {borrowerVaultId caller borrowSeconds} (pos : 0 < v.lastCheckIn) :
      Shortens env id v (.borrowTtl borrowerVaultId id caller borrowSeconds)

/-- The list of beneficiaries stays, and the primary one unless the call gives another. -/
structure KeepsPayees (s : State) (call : Call) (id : VaultId) (v w : Vault) : Prop where
  list : w.beneficiaries = v.beneficiaries
  primary : w.beneficiary = v.beneficiary ∨ (call.newBeneficiary s id).isSome

/-- **What a call can do to one vault.** -/
structure Change (env : Env) (s : State) (call : Call) (id : VaultId) (v w : Vault) : Prop where
  status : w.status = v.status ∨ v.status = .locked ∨
    (executedOperation s id call = some .cancelVault ∧ w.status = .cancelled)
  empty : w.status = .cancelled → w.balance = 0 ∨
    (v.status = .cancelled ∧ (v.balance = 0 → Refills s id call))
  owner : w.owner = v.owner ∨ v.status = .locked ∨
    executedOperation s id call = some .transferOwnership
  later : v.deadline < w.deadline → Extends env s id v call
  earlier : w.deadline < v.deadline → Shortens env id v call
  payees : v.status = .locked ∨ KeepsPayees s call id v w

section Change

variable {env : Env} {s : State} {call : Call} {id : VaultId} {v w : Vault}

theorem Change.of_deadline (status : w.status = v.status ∨ v.status = .locked ∨
      (executedOperation s id call = some .cancelVault ∧ w.status = .cancelled))
    (empty : w.status = .cancelled → w.balance = 0 ∨
      (v.status = .cancelled ∧ (v.balance = 0 → Refills s id call)))
    (owner : w.owner = v.owner ∨ v.status = .locked ∨
      executedOperation s id call = some .transferOwnership)
    (deadline : w.deadline = v.deadline)
    (payees : v.status = .locked ∨ KeepsPayees s call id v w) : Change env s call id v w := by
  refine ⟨status, empty, owner, fun later => ?_, fun earlier => ?_, payees⟩
  · rw [deadline] at later
    exact absurd later (lt_irrefl _)
  · rw [deadline] at earlier
    exact absurd earlier (lt_irrefl _)

theorem Change.of_locked (locked : v.status = .locked)
    (empty : w.status = .cancelled → w.balance = 0) (deadline : w.deadline = v.deadline) :
    Change env s call id v w :=
  .of_deadline (.inr (.inl locked)) (fun cancelled => .inl (empty cancelled))
    (.inr (.inl locked)) deadline (.inl locked)

theorem empty_of_status {refilled : Prop} (status : w.status = v.status)
    (empty : v.status = .cancelled → v.balance = 0 → w.balance = 0 ∨ refilled)
    (cancelled : w.status = .cancelled) :
    w.balance = 0 ∨ (v.status = .cancelled ∧ (v.balance = 0 → refilled)) := by
  rw [status] at cancelled
  by_cases zero : v.balance = 0
  · rcases empty cancelled zero with kept | refills
    · exact .inl kept
    · exact .inr ⟨cancelled, fun _ => refills⟩
  · exact .inr ⟨cancelled, fun isZero => absurd isZero zero⟩

theorem Change.of_balance (status : w.status = v.status) (owner : w.owner = v.owner)
    (deadline : w.deadline = v.deadline) (payees : KeepsPayees s call id v w)
    (empty : v.status = .cancelled → v.balance = 0 → w.balance = 0 ∨ Refills s id call) :
    Change env s call id v w :=
  .of_deadline (.inl status) (empty_of_status status empty) (.inl owner) deadline (.inr payees)

theorem Change.of_released (released : v.status = .released) (status : w.status = v.status)
    (owner : w.owner = v.owner) (deadline : w.deadline = v.deadline)
    (payees : KeepsPayees s call id v w) : Change env s call id v w :=
  .of_balance status owner deadline payees fun cancelled _ => nomatch released.symm.trans cancelled

theorem Change.of_settings (status : w.status = v.status) (owner : w.owner = v.owner)
    (balance : w.balance = v.balance) (deadline : w.deadline = v.deadline)
    (payees : KeepsPayees s call id v w) : Change env s call id v w :=
  .of_balance status owner deadline payees fun _ zero => .inl (balance.trans zero)

theorem Change.refl : Change env s call id v v := .of_settings rfl rfl rfl rfl ⟨rfl, .inl rfl⟩

theorem Change.of_kept (locked : v.status = .locked) (status : w.status = .locked)
    (deadline : w.deadline = v.deadline) : Change env s call id v w := by
  refine .of_locked locked (fun cancelled => ?_) deadline
  cases status.symm.trans cancelled

theorem Change.of_restart (locked : v.status = .locked) (status : w.status = .locked)
    (lastCheckIn : w.lastCheckIn = env.now) (interval : w.checkInInterval = v.checkInInterval)
    (extends' : Extends env s id v call)
    (authority : v.owner ∈ env.signers ∨ id ∈ call.restarts) : Change env s call id v w := by
  refine ⟨.inr (.inl locked), fun cancelled => ?_, .inr (.inl locked), fun _ => extends',
    fun earlier => ?_, .inl locked⟩
  · rw [status] at cancelled
    cases cancelled
  · rcases authority with signed | restarted
    · exact .owner signed
    · refine .restart restarted ?_
      unfold Vault.deadline at earlier
      omega

theorem Change.of_owner (locked : v.status = .locked) (status : w.status = .locked)
    (signed : v.owner ∈ env.signers) : Change env s call id v w := by
  refine ⟨.inr (.inl locked), fun cancelled => ?_, .inr (.inl locked), fun _ => .owner signed,
    fun _ => .owner signed, .inl locked⟩
  rw [status] at cancelled
  cases cancelled

end Change

/-! ### Payments -/

/-- The calls that pay the owner of a vault that may be released. -/
def PaysOwner (s : State) (id : VaultId) (call : Call) : Prop :=
  call = .executeApprovedWithdrawal id ∨ executedOperation s id call = some .withdraw ∨
    executedOperation s id call = some .cancelVault ∨ ∃ caller, call = .clawbackUnvested id caller

/-- **The payees on record**: who may be paid out of a vault that is not locked. -/
inductive Recorded (s : State) (id : VaultId) (v : Vault) : Address → Prop
  | beneficiary : Recorded s id v v.beneficiary
  | listed {entry} (member : entry ∈ v.beneficiaries) : Recorded s id v entry.address
  | escrow {escrow} (stored : s.withdrawals.escrow id = some escrow) :
      Recorded s id v escrow.beneficiary
  | pendingClaim {claim} (stored : s.vesting.pendingClaim id 0 = some claim) :
      Recorded s id v claim.beneficiary
  | stagger {entries entry} (stored : s.vesting.stagger id = some entries)
      (member : entry ∈ entries) : Recorded s id v entry.beneficiary
  | schedule {beneficiary schedule}
      (stored : s.vesting.beneficiarySchedule id beneficiary = some schedule) :
      Recorded s id v beneficiary
  | forfeiture {config} (stored : s.vesting.forfeiture id = some config) :
      Recorded s id v config.forfeitureRecipient

theorem recorded_iff {s : State} {id : VaultId} {v : Vault} {address : Address} :
    Recorded s id v address ↔ address = v.beneficiary ∨ address ∈ v.beneficiaries.map (·.address) ∨
      (∃ escrow ∈ s.withdrawals.escrow id, escrow.beneficiary = address) ∨
      (∃ claim ∈ s.vesting.pendingClaim id 0, claim.beneficiary = address) ∨
      (∃ entries ∈ s.vesting.stagger id, address ∈ entries.map (·.beneficiary)) ∨
      (s.vesting.beneficiarySchedule id address).isSome = true ∨
      ∃ config ∈ s.vesting.forfeiture id, config.forfeitureRecipient = address := by
  constructor
  · rintro (_ | member | stored | stored | ⟨stored, member⟩ | stored | stored)
    · exact .inl rfl
    · exact .inr (.inl (mem_map_of_mem member))
    · exact .inr (.inr (.inl ⟨_, stored, rfl⟩))
    · exact .inr (.inr (.inr (.inl ⟨_, stored, rfl⟩)))
    · exact .inr (.inr (.inr (.inr (.inl ⟨_, stored, mem_map_of_mem member⟩))))
    · exact .inr (.inr (.inr (.inr (.inr (.inl (Option.isSome_of_eq_some stored))))))
    · exact .inr (.inr (.inr (.inr (.inr (.inr ⟨_, stored, rfl⟩)))))
  · rintro (rfl | member | ⟨_, stored, rfl⟩ | ⟨_, stored, rfl⟩ | ⟨_, stored, member⟩ | scheduled |
      ⟨_, stored, rfl⟩)
    · exact .beneficiary
    · obtain ⟨entry, listed, rfl⟩ := mem_map.mp member
      exact .listed listed
    · exact .escrow stored
    · exact .pendingClaim stored
    · obtain ⟨entry, listed, rfl⟩ := mem_map.mp member
      exact .stagger stored listed
    · obtain ⟨schedule, stored⟩ := Option.isSome_iff_exists.mp scheduled
      exact .schedule stored
    · exact .forfeiture stored

instance (s : State) (id : VaultId) (v : Vault) (address : Address) :
    Decidable (Recorded s id v address) :=
  decidable_of_iff _ recorded_iff.symm

/-- A payment goes out of a locked vault, to the owner by a call that pays them, or to a payee on
record. -/
def Paid (s : State) (call : Call) (payout : Payout) : Prop :=
  ∃ v, s.vaults payout.vaultId = some v ∧
    (v.status = .locked ∨ PaysOwner s payout.vaultId call ∨
      Recorded s payout.vaultId v payout.payee)

/-! ### Effects -/

/-- **Whom a call may register**: who it is and with whose authority; and nothing is staked. -/
structure Registers (env : Env) (call : Call) (s t : State) : Prop where
  delegates : ∀ id delegate, delegate ∈ t.registry.checkInDelegates id →
    delegate ∈ s.registry.checkInDelegates id ∨ ∃ v, s.vaults id = some v ∧
      call = .addCheckInDelegate id v.owner delegate ∧ v.owner ∈ env.signers
  passkeys : ∀ id passkeyHash delegation,
    t.registry.passkeyDelegation id passkeyHash = some delegation →
    s.registry.passkeyDelegation id passkeyHash = some delegation ∨
      ∃ v, s.vaults id = some v ∧
        call = .delegatePasskey id v.owner passkeyHash delegation.delegate delegation.expiresAt ∧
        v.owner ∈ env.signers
  codes : ∀ id hash, t.registry.recoveryCodeHash id = some hash →
    s.registry.recoveryCodeHash id = some hash ∨ ∃ v code, s.vaults id = some v ∧
      call = .generateRecoveryCode id code ∧ hash = env.sha256 code ∧ v.owner ∈ env.signers
  staking : s.registry.Unstaked → t.registry.Unstaked

/-- **What a call can do to vaults and payments.** -/
structure Effect (env : Env) (call : Call) (s t : State) : Prop extends Registers env call s t where
  vaults : ∀ id v, s.vaults id = some v → ∃ w, t.vaults id = some w ∧ Change env s call id v w
  opened : ∀ id w, s.vaults id = none → t.vaults id = some w →
    id ≤ t.vaultCount ∧ w.status = .locked
  counted : s.vaultCount ≤ t.vaultCount
  payouts : ∃ paid, t.payouts = s.payouts ++ paid ∧ ∀ payout ∈ paid, Paid s call payout

section Effect

variable {env : Env} {call : Call} {s t : State}

theorem Registers.of_registry (registry : t.registry = s.registry) : Registers env call s t where
  delegates _ _ member := .inl (registry ▸ member)
  passkeys _ _ _ stored := .inl (registry ▸ stored)
  codes _ _ stored := .inl (registry ▸ stored)
  staking unstaked := registry ▸ unstaked

theorem Registers.refl (s : State) : Registers env call s s := .of_registry rfl

namespace Effect

theorem of_registered (vaults : t.vaults = s.vaults) (count : t.vaultCount = s.vaultCount)
    (payouts : t.payouts = s.payouts) (registers : Registers env call s t) : Effect env call s t where
  toRegisters := registers
  vaults id v found := ⟨v, by rw [vaults, found], .refl⟩
  opened id w absent present := by
    rw [vaults, absent] at present
    cases present
  counted := le_of_eq count.symm
  payouts := ⟨[], by rw [payouts, append_nil], nofun⟩

theorem of_open {w : Vault} (counted : s.Counted)
    (vaults : t.vaults = update s.vaults (s.vaultCount + 1) (some w))
    (count : t.vaultCount = s.vaultCount + 1) (registry : t.registry = s.registry)
    (payouts : t.payouts = s.payouts) (status : w.status = .locked) : Effect env call s t where
  toRegisters := .of_registry registry
  vaults id v found := by
    have ne : id ≠ s.vaultCount + 1 := by
      rintro rfl
      rw [counted _ (Nat.lt_succ_self _)] at found
      cases found
    rw [vaults, update_of_ne ne]
    exact ⟨v, found, .refl⟩
  opened id u absent present := by
    rw [vaults] at present
    rcases update_eq_some_iff.mp present with ⟨same, rfl⟩ | ⟨-, present⟩
    · rw [count]
      exact ⟨le_of_eq same, status⟩
    · rw [absent] at present
      cases present
  counted := by
    rw [count]
    exact Nat.le_succ _
  payouts := ⟨[], by rw [payouts, append_nil], nofun⟩

theorem of_frame (vaults : t.vaults = s.vaults) (count : t.vaultCount = s.vaultCount)
    (registry : t.registry = s.registry) (payouts : t.payouts = s.payouts) : Effect env call s t :=
  of_registered vaults count payouts (.of_registry registry)

theorem of_core (core : t.core = s.core) : Effect env call s t :=
  of_frame (congrArg Core.vaults core) (congrArg Core.vaultCount core) (congrArg Core.registry core)
    (congrArg Core.payouts core)

theorem of_vaults
    (vaults : ∀ id v, s.vaults id = some v → ∃ w, t.vaults id = some w ∧ Change env s call id v w)
    (opened : ∀ id, s.vaults id = none → t.vaults id = none) (count : t.vaultCount = s.vaultCount)
    (registry : t.registry = s.registry)
    (payouts : ∃ paid, t.payouts = s.payouts ++ paid ∧ ∀ payout ∈ paid, Paid s call payout) :
    Effect env call s t where
  toRegisters := .of_registry registry
  vaults := vaults
  opened id w absent present := by
    rw [opened id absent] at present
    cases present
  counted := le_of_eq count.symm
  payouts := payouts

variable {id : VaultId} {v w : Vault} (found : s.vaults id = some v)
  (vaults : t.vaults = update s.vaults id (some w)) (count : t.vaultCount = s.vaultCount)
  (registry : t.registry = s.registry)
include found vaults count registry

theorem of_update {paid : List Payout} (payouts : t.payouts = s.payouts ++ paid)
    (pays : ∀ payout ∈ paid, Paid s call payout) (change : Change env s call id v w) :
    Effect env call s t := by
  refine .of_vaults ?_ ?_ count registry ⟨paid, payouts, pays⟩
  · intro other u foundOther
    rw [vaults]
    by_cases same : other = id
    · subst same
      cases found.symm.trans foundOther
      exact ⟨w, update_self .., change⟩
    · rw [update_of_ne same]
      exact ⟨u, foundOther, .refl⟩
  · intro other absent
    have ne : other ≠ id := by
      rintro rfl
      rw [found] at absent
      cases absent
    rw [vaults, update_of_ne ne]
    exact absent

theorem of_save (payouts : t.payouts = s.payouts) (change : Change env s call id v w) :
    Effect env call s t := by
  have none : t.payouts = s.payouts ++ [] := by rw [payouts, append_nil]
  exact of_update found vaults count registry none nofun change

theorem of_disbursed {payees : Address → Prop} {u u' : State} (disbursed : Disbursed id payees u u')
    (earlier : u.payouts = s.payouts) (payouts : t.payouts = u'.payouts)
    (reason : ∀ payee, payees payee →
      v.status = .locked ∨ PaysOwner s id call ∨ Recorded s id v payee)
    (change : Change env s call id v w) : Effect env call s t := by
  obtain ⟨new, paid, allowed⟩ := disbursed.paid
  rw [earlier] at paid
  refine of_update found vaults count registry (payouts.trans paid) (fun payout member => ?_) change
  obtain ⟨same, payee⟩ := allowed payout member
  unfold Paid
  rw [same]
  exact ⟨v, found, reason _ payee⟩

theorem of_payment {token payee : Address} {amount : Int}
    (payouts : t.payouts = s.payouts ++ [⟨id, token, payee, amount⟩])
    (reason : v.status = .locked ∨ PaysOwner s id call ∨ Recorded s id v payee)
    (change : Change env s call id v w) : Effect env call s t := by
  refine of_update found vaults count registry payouts (fun payout member => ?_) change
  rw [mem_singleton.mp member]
  exact ⟨v, found, reason⟩

theorem of_setting (locked : v.status = .locked) (payouts : t.payouts = s.payouts)
    (status : w.status = .locked) (deadline : w.deadline = v.deadline) : Effect env call s t :=
  of_save found vaults count registry payouts (.of_kept locked status deadline)

end Effect

end Effect

end EthosContracts.TtlVault
