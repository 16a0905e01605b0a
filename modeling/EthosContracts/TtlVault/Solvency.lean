/-
**Solvency: the contract always holds what its vaults are worth.**

The vaults are accounts in custody (`Lib.Custody`): `accounts` is what each of them is worth and in
which token, and the contract's own holdings are the pot.

* One preservation lemma per call, all of them through `Sound.write`: the holdings change by at most
  what the written vault changes by.
-/

import EthosContracts.Lib.Custody
import EthosContracts.Lib.Table
import EthosContracts.TtlVault.Batch
import EthosContracts.TtlVault.Frame

namespace EthosContracts.TtlVault

open Lib Function List

/-! ### The invariant -/

def accounts (vaults : VaultId → Option Vault) (id : VaultId) : Option (Account Address) :=
  (vaults id).map fun vault => ⟨vault.tokenAddress, vault.balance⟩

theorem accounts_update (vaults : VaultId → Option Vault) (id : VaultId) (vault : Vault) :
    accounts (update vaults id (some vault)) =
      update (accounts vaults) id (some ⟨vault.tokenAddress, vault.balance⟩) := by
  funext other
  by_cases same : other = id
  · subst same
    simp [accounts]
  · simp [accounts, same]

/-- The settings of a vault that the bounds on its release rest on. -/
structure Vault.Sound (vault : Vault) : Prop where
  shares : (vault.beneficiaries.map (·.bps)).sum ≤ 10000
  limit : ∀ bound ∈ vault.spendingLimit, 0 < bound
  burn : vault.burnPercentage ≤ 10000

def Vault.settings (vault : Vault) : Address × List BeneficiaryEntry × Option Int × Nat :=
  (vault.tokenAddress, vault.beneficiaries, vault.spendingLimit, vault.burnPercentage)

variable {new : Vault} {s : State} {host : Host}

theorem Vault.Sound.congr {vault : Vault} (sound : vault.Sound)
    (same : new.settings = vault.settings) : new.Sound := by
  simp only [Vault.settings, Prod.mk.injEq] at same
  obtain ⟨-, shares, limit, burn⟩ := same
  exact ⟨shares ▸ sound.shares, limit ▸ sound.limit, burn ▸ sound.burn⟩

/-- **The invariant of solvency.** -/
structure Sound (holder : Address) (core : Core) : Prop where
  backed : Backed (accounts core.vaults) fun token => core.ledger token holder
  vaults : ∀ id vault, core.vaults id = some vault → vault.Sound
  rotations : ∀ id schedule, core.rotationSchedule id = some schedule →
    ∀ entry ∈ schedule, (entry.newBeneficiaries.map (·.bps)).sum ≤ 10000
  noForfeiture : ∀ id, core.forfeiture id = none

namespace Sound

variable {holder : Address} {core : Core} {id : VaultId} {vault new : Vault}
  {ledger : Ledger Address Address} {payouts : List Payout} (sound : Sound holder core)
include sound

theorem openVault (newSound : new.Sound) (empty : new.balance = 0) (count : Nat) :
    Sound holder { core with
      vaults := update core.vaults id (some new), vaultCount := count } := by
  refine ⟨?_, forall_entries_update (fun id vault _ => sound.vaults id vault) newSound,
    sound.rotations, sound.noForfeiture⟩
  show Backed (accounts (update core.vaults id (some new))) _
  rw [accounts_update, empty]
  exact sound.backed.open id new.tokenAddress

variable (found : core.vaults id = some vault)
include found

theorem balance_nonneg : 0 ≤ vault.balance := by
  refine sound.backed.nonneg id ⟨vault.tokenAddress, vault.balance⟩ ?_
  simp [accounts, found]

theorem covers : vault.balance ≤ core.ledger vault.tokenAddress holder := by
  have stored : accounts core.vaults id = some ⟨vault.tokenAddress, vault.balance⟩ := by
    simp [accounts, found]
  exact sound.backed.covers stored

section

variable (sameToken : new.tokenAddress = vault.tokenAddress) (newSound : new.Sound)
include sameToken newSound

/-- **Writing one vault.** In its own token the holdings change by no less than the balance, in the
others they do not fall. -/
theorem write (nonneg : 0 ≤ new.balance)
    (matched : ∀ token, core.ledger token holder +
      (if token = vault.tokenAddress then new.balance - vault.balance else 0) ≤
        ledger token holder) :
    Sound holder { core with
      vaults := update core.vaults id (some new)
      ledger := ledger
      payouts := payouts } := by
  refine ⟨?_, forall_entries_update (fun id vault _ => sound.vaults id vault) newSound,
    sound.rotations, sound.noForfeiture⟩
  show Backed (accounts (update core.vaults id (some new))) _
  rw [accounts_update]
  refine sound.backed.set nonneg fun token => ?_
  have before : accounts core.vaults id = some ⟨vault.tokenAddress, vault.balance⟩ := by
    simp [accounts, found]
  have bound := matched token
  rw [before, Account.worth_some, Account.worth_some]
  dsimp only
  rw [sameToken]
  by_cases same : token = vault.tokenAddress
  · subst same
    simp only [if_true] at bound ⊢
    exact bound
  · simp only [if_neg same, if_neg (Ne.symm same)] at bound ⊢
    omega

theorem settings (sameBalance : new.balance = vault.balance) :
    Sound holder { core with vaults := update core.vaults id (some new) } := by
  refine sound.write found sameToken newSound ?_ fun token => ?_
  · rw [sameBalance]
    exact sound.balance_nonneg found
  · rw [sameBalance]
    split_ifs <;> omega

theorem pay {amount : Int} (newBalance : new.balance = vault.balance - amount)
    (covered : amount ≤ vault.balance)
    (spent : SpentAtMost holder vault.tokenAddress amount core.ledger ledger) :
    Sound holder { core with
      vaults := update core.vaults id (some new)
      ledger := ledger
      payouts := payouts } := by
  refine sound.write found sameToken newSound (by omega) fun token => ?_
  have bound := spent token
  rw [newBalance]
  split_ifs at bound ⊢ <;> omega

end

theorem payout {amount : Int} (same : new.settings = vault.settings)
    (newBalance : new.balance = vault.balance - amount) (covered : amount ≤ vault.balance)
    (spent : SpentAtMost holder vault.tokenAddress amount core.ledger ledger) :
    Sound holder { core with
      vaults := update core.vaults id (some new)
      ledger := ledger
      payouts := payouts } :=
  sound.pay found (congrArg Prod.fst same) ((sound.vaults id vault found).congr same) newBalance
    covered spent

end Sound

/-! ### Opening vaults -/

/-- The call ends in a sound state. -/
def KeepsSound {α : Type} (env : Env) (s : State) (call : Contract α) : Prop :=
  call.wp s fun _ t => Sound env.self t.core

section Calls

variable (env : Env) {s : State} (sound : Sound env.self s.core)
variable (id : VaultId) (caller address : Address) (amount : Int)
include sound

theorem createVault_sound (owner beneficiary : Address) (interval : Nat) (token : Option Address) :
    KeepsSound env s (createVault env owner beneficiary interval token) := by
  have fresh : ∀ chosen, (newVault owner beneficiary chosen interval env.now).Sound :=
    fun chosen => ⟨by simp [newVault], by simp [newVault], by simp [newVault]⟩
  simp only [KeepsSound, createVault, initPasskeys, assertOwnerCapacity, addOwnerVaultId,
    addBeneficiaryVaultId, setVaultDuplicate, wp_rules]
  intros
  exact (chooseToken_readonly token).wp fun chosen _ => sound.openVault (fresh chosen) rfl _

theorem cloneVault_sound (sourceVaultId : VaultId) (newOwner newBeneficiary : Address) :
    KeepsSound env s (cloneVault env sourceVaultId newOwner newBeneficiary) := by
  simp only [KeepsSound, cloneVault, registerClone, addOwnerVaultId, addBeneficiaryVaultId, wp_rules]
  intro _ original found _ _ _ _
  have kept : (clonedVault original sourceVaultId newOwner newBeneficiary env.now).Sound :=
    (sound.vaults sourceVaultId original found).congr rfl
  exact sound.openVault kept rfl _

/-! ### Deposits -/

@[simp] theorem deposit_sound (sender : Address) :
    KeepsSound env s (deposit env id sender amount) := by
  simp only [KeepsSound, deposit, wp_rules]
  intro _ _ pos auth vault found _ _ _ _ _ _ _ _
  refine (assertBelowDepositCap_readonly vault amount).wp fun _ => ?_
  intro after moved _
  have nonneg := sound.balance_nonneg found
  have kept := sound.vaults id vault found
  refine sound.write found rfl (kept.congr rfl) ?_ fun token => ?_
  · show 0 ≤ vault.balance + amount
    omega
  · show s.ledger token env.self + _ ≤ after token env.self
    by_cases same : token = vault.tokenAddress
    · subst same
      rw [if_pos rfl, Ledger.transfer_receiver moved (Ne.symm auth.1)]
      show _ + (vault.balance + amount - vault.balance) ≤ _
      omega
    · rw [if_neg same, Ledger.transfer_frame moved same]
      omega

omit sound in
theorem writeBack_sound (validated : List ValidatedDeposit) : ∀ vaults,
    (∀ entry ∈ validated, entry.vault.Sound) →
    (∀ id vault, vaults id = some vault → vault.Sound) →
    ∀ id vault, writeBack validated vaults id = some vault → vault.Sound := by
  induction validated with
  | nil => exact fun vaults _ stored => stored
  | cons entry rest ih =>
    intro vaults copies stored
    refine ih _ (forall_mem_cons.mp copies).2 ?_
    exact forall_entries_update (fun id vault _ => stored id vault)
      ((copies entry mem_cons_self).congr rfl)

omit sound in
/-- **Writing back copies.** The holdings already include the deposits still to be written; each
write raises its vault by at most its own deposit, also where an earlier write is lost. -/
theorem writeBack_backed (token : Address) (origin : VaultId → Option Vault)
    (holdings : Address → Int) (validated : List ValidatedDeposit) : ∀ vaults,
    (∀ entry ∈ validated, origin entry.vaultId = some entry.vault ∧ 0 < entry.amount ∧
      0 ≤ entry.vault.balance ∧ entry.vault.tokenAddress = token) →
    (∀ id vault, origin id = some vault → ∃ current, vaults id = some current ∧
      current.tokenAddress = vault.tokenAddress ∧ vault.balance ≤ current.balance) →
    Backed (accounts vaults) (fun t => holdings t -
      if t = token then (validated.map (·.amount)).sum else 0) →
    Backed (accounts (writeBack validated vaults)) holdings := by
  induction validated with
  | nil =>
    intro vaults _ _ backed
    refine backed.mono fun t => ?_
    simp
  | cons entry rest ih =>
    intro vaults entries grown backed
    obtain ⟨stored, pos, nonneg, sameToken⟩ := entries entry mem_cons_self
    obtain ⟨current, found, currentToken, le⟩ := grown entry.vaultId entry.vault stored
    refine ih _ (forall_mem_cons.mp entries).2 ?_ ?_
    · intro id vault origin
      by_cases same : id = entry.vaultId
      · subst same
        rw [stored] at origin
        cases origin
        refine ⟨entry.credited, update_self _ _ _, rfl, ?_⟩
        show entry.vault.balance ≤ entry.vault.balance + entry.amount
        omega
      · rw [update_of_ne same]
        exact grown id vault origin
    · rw [accounts_update]
      have before : accounts vaults entry.vaultId =
          some ⟨current.tokenAddress, current.balance⟩ := by
        simp [accounts, found]
      refine backed.set ?_ fun t => ?_
      · show 0 ≤ entry.vault.balance + entry.amount
        omega
      · rw [before, Account.worth_some, Account.worth_some, map_cons, sum_cons]
        simp only [ValidatedDeposit.credited, currentToken, sameToken]
        split_ifs <;> first | omega | simp_all

@[simp] theorem batchDeposit_sound (sender : Address) (deposits : List (VaultId × Int)) :
    KeepsSound env s (batchDeposit env sender deposits) := by
  simp only [KeepsSound, batchDeposit, wp_rules]
  intro _ auth token _
  refine (validateDeposits_spec env deposits 0 s).mono ?_
  rintro validated t ⟨rfl, requests, checked, total⟩
  refine ⟨fun _ => sound, fun _ after moved => ?_⟩
  refine (applyDeposits_spec token validated.1 _).mono ?_
  rintro _ u ⟨rfl, written⟩
  have amounts : (validated.1.map (·.amount)).sum = validated.2 := by
    rw [total, Int.zero_add, ← requests, map_map]
    rfl
  refine ⟨?_, ?_, sound.rotations, sound.noForfeiture⟩
  · refine writeBack_backed token t.vaults (fun asset => after asset env.self) validated.1 t.vaults
      ?_ (fun id vault found => ⟨vault, found, rfl, le_refl _⟩) (sound.backed.mono fun asset => ?_)
    · intro entry member
      have facts := checked entry member
      exact ⟨facts.stored, facts.pos, sound.balance_nonneg facts.stored, (written entry member).1⟩
    · show t.ledger asset env.self ≤ after asset env.self - _
      rw [amounts]
      by_cases same : asset = token
      · subst same
        rw [if_pos rfl, Ledger.transfer_receiver moved (Ne.symm auth.1)]
        omega
      · rw [if_neg same, Ledger.transfer_frame moved same]
        omega
  · exact writeBack_sound validated.1 t.vaults
      (fun entry member => sound.vaults _ _ (checked entry member).stored) sound.vaults

/-! ### Withdrawals -/

@[simp] theorem withdraw_sound : KeepsSound env s (withdraw env id caller amount) := by
  simp only [KeepsSound, withdraw, wp_rules]
  intro _ _ _ vault found _ _ _ _ _ enough _
  refine (checkWithdrawalLimits_frame env id amount s).mono ?_
  rintro _ t ⟨tracker, rfl⟩
  simp only [recordWithdrawalForReversal, wp_rules]
  intro _ _ _ after moved _ _ _ _ _
  exact sound.payout found rfl rfl enough (SpentAtMost.single moved)

@[simp]
theorem partialLiquidate_sound (percentageAllowed : Nat) :
    KeepsSound env s (partialLiquidate env id amount percentageAllowed) := by
  simp only [KeepsSound, partialLiquidate, wp_rules]
  intro _ _ _ vault found _ _ _ _ _ _ _ enough after moved _
  exact sound.payout found rfl rfl enough (SpentAtMost.single moved)

omit sound in
theorem applyWithdrawals_sound (token : Address) (entries : List (VaultId × Int)) : ∀ s : State,
    Sound env.self s.core → (entries.map Prod.fst).Nodup →
    (∀ entry ∈ entries, ∃ vault, s.vaults entry.1 = some vault ∧ entry.2 ≤ vault.balance) →
    (applyWithdrawals env caller token entries).wp s fun _ t => Sound env.self t.core := by
  unfold applyWithdrawals
  induction entries with
  | nil =>
    intro s sound _ _
    exact (wp_forM_nil _ s _).mpr sound
  | cons entry rest ih =>
    intro s sound distinct covered
    rw [map_cons, nodup_cons] at distinct
    rw [wp_forM_cons]
    simp only [wp_rules]
    intro vault found sameToken after moved _ _ _
    obtain ⟨stored, found', enough⟩ := covered entry mem_cons_self
    rw [found] at found'
    cases found'
    subst sameToken
    refine ih _ ?_ distinct.2 ?_
    · exact sound.payout found rfl rfl enough (SpentAtMost.single moved)
    · intro other member
      have ne : other.1 ≠ entry.1 := fun same =>
        distinct.1 (same ▸ mem_map_of_mem member)
      simp only [update_of_ne ne]
      exact covered other (mem_cons_of_mem entry member)

theorem batchWithdraw_sound (vaultIds : List VaultId) (amounts : List Int)
    (distinct : vaultIds.Nodup) :
    KeepsSound env s (batchWithdraw env vaultIds amounts caller) := by
  simp only [KeepsSound, batchWithdraw, wp_rules]
  intro _ sameLength _
  refine (validateWithdrawals_spec env caller _ s).mono ?_
  rintro _ t ⟨rfl, checked⟩ token _
  refine applyWithdrawals_sound env caller token _ t sound ?_ fun entry member => ?_
  · rw [map_fst_zip (le_of_eq sameLength)]
    exact distinct
  · obtain ⟨vault, found, -, -, enough⟩ := (checked entry member).vault
    exact ⟨vault, found, enough⟩

/-! ### Release and cancellation -/

@[simp] theorem partialRelease_sound : KeepsSound env s (partialRelease env id amount) := by
  simp only [KeepsSound, partialRelease, wp_rules]
  intro _ pos vault found _ _
  refine (isExpired_readonly env id).wp fun _ _ enough => ?_
  have kept := sound.vaults id vault found
  refine ((payBeneficiaries_paid env id vault amount (by omega) kept.shares s).and
    (payBeneficiaries_disbursed env id vault amount s)).mono ?_
  rintro _ t ⟨out, paid⟩
  have spent := out.spent
  rw [paid.frame]
  intro _
  exact sound.payout found rfl rfl enough spent

variable {vault : Vault}

omit sound in
theorem releaseAmount_bounds (kept : vault.Sound) (nonneg : 0 ≤ vault.balance) :
    0 ≤ vault.releaseAmount ∧ vault.releaseAmount ≤ vault.balance := by
  unfold Vault.releaseAmount
  split
  · rename_i limit limited
    have pos := kept.limit limit limited
    omega
  · omega

omit sound in
theorem net_bounds {amount : Int} {burn : Nat} (nonneg : 0 ≤ amount) (le : burn ≤ 10000) :
    0 ≤ amount - (amount * burn).tdiv 10000 ∧ amount - (amount * burn).tdiv 10000 ≤ amount := by
  have scaled : 0 ≤ amount * (burn : Int) := Int.mul_nonneg nonneg (Int.natCast_nonneg _)
  have bound : amount * (burn : Int) ≤ amount * 10000 :=
    Int.mul_le_mul_of_nonneg_left (by omega) nonneg
  rw [Int.tdiv_eq_ediv_of_nonneg scaled]
  omega

theorem releaseNow_sound (id : VaultId) {stored : Vault}
    (found : s.vaults id = some stored) (sameToken : vault.tokenAddress = stored.tokenAddress)
    (sameBalance : vault.balance = stored.balance) (kept : vault.Sound) (mode : ReleaseTrigger) :
    (releaseNow env id vault mode).wp s fun _ t => Sound env.self t.core := by
  have nonneg : 0 ≤ vault.balance := sameBalance ▸ sound.balance_nonneg found
  have amount := releaseAmount_bounds kept nonneg
  have net := net_bounds amount.1 kept.burn
  simp only [releaseNow, setVaultDuplicate, wp_rules]
  intro _ _
  have saved : ∀ (new : Vault) (ledger : Ledger Address Address) (payouts : List Payout),
      new.tokenAddress = vault.tokenAddress → new.Sound →
      new.balance = vault.balance - vault.releaseAmount →
      SpentAtMost env.self vault.tokenAddress vault.releaseAmount s.ledger ledger →
      Sound env.self { s.core with
        vaults := update s.vaults id (some new)
        ledger := ledger
        payouts := payouts } := by
    intro new ledger payouts token newSound balance spent
    rw [sameToken] at token spent
    rw [sameBalance] at balance
    exact sound.pay found token newSound balance (sameBalance ▸ amount.2) spent
  refine ⟨fun _ _ after moved _ => ?_, fun _ => ?_⟩
  · exact ⟨fun _ => saved _ _ _ rfl (kept.congr rfl) rfl (SpentAtMost.single moved),
      fun _ => saved _ _ _ rfl (kept.congr rfl) rfl (SpentAtMost.single moved)⟩
  · refine ((distributeReleaseAmount_spent env id mode s net.1 kept.shares).and
      (distributeReleaseAmount_disbursed env id vault _ mode s)).mono ?_
    rintro _ t ⟨spent, paid⟩ _
    have spent := spent.mono net.2
    rw [paid.frame]
    exact ⟨fun _ => saved _ _ _ rfl (kept.congr rfl) rfl spent,
      fun _ => saved _ _ _ rfl (kept.congr rfl) rfl spent⟩

theorem rotatedVault_sound {id : VaultId}
    (found : s.vaults id = some vault) : (rotatedVault env id s vault).Sound := by
  have kept := sound.vaults id vault found
  refine ⟨?_, kept.limit, kept.burn⟩
  unfold rotatedVault
  dsimp only
  rcases rotatedBeneficiaries_cases env.now (s.beneficiaries.rotationSchedule id)
    vault.beneficiaries with same | ⟨schedule, stored, rotation, member, rotated⟩
  · rw [same]
    exact kept.shares
  · rw [rotated]
    exact sound.rotations id schedule stored rotation member

@[simp] theorem triggerRelease_sound : KeepsSound env s (triggerRelease env id) := by
  refine triggerReleaseInternal_wp env id .expiry ?refund ?wait ?pay
  case refund =>
    intro vault found _ _
    simp only [refundMissedAcceptance, wp_rules]
    intro after moved
    exact sound.payout found rfl (Int.sub_self _).symm (le_refl _) (SpentAtMost.single moved)
  case wait =>
    intro vault found _ _ _
    simp only [wp_rules]
    exact sound.settings found rfl ((rotatedVault_sound env sound found).congr rfl) rfl
  case pay =>
    intro vault found _ _ _
    have sameToken : (rotatedVault env id s vault).tokenAddress = vault.tokenAddress := rfl
    exact releaseNow_sound env (s := s.attempted id) sound id found sameToken rfl
      (rotatedVault_sound env sound found) .expiry

@[simp] theorem cancelVault_sound : KeepsSound env s (cancelVault env id caller) := by
  simp only [KeepsSound, cancelVault, refundOwner, removeOwnerVaultId, removeBeneficiaryVaultId,
    setVaultDuplicate, wp_rules]
  intro _ _ vault found _ _ _ _
  have kept := sound.vaults id vault found
  have nonneg := sound.balance_nonneg found
  refine ⟨fun _ after moved => ?_, fun empty => ?_⟩
  · exact sound.payout found rfl (Int.sub_self _).symm (le_refl _) (SpentAtMost.single moved)
  · have zero : vault.balance = 0 := by omega
    exact sound.settings found rfl (kept.congr rfl) zero.symm

/-! ### Merging -/

omit sound in
theorem Sound.move {core : Core} (sound : Sound env.self core) {sourceId targetId : VaultId}
    {source target emptied raised : Vault} (ne : targetId ≠ sourceId)
    (foundSource : core.vaults sourceId = some source)
    (foundTarget : core.vaults targetId = some target)
    (sameToken : source.tokenAddress = target.tokenAddress)
    (emptiedToken : emptied.tokenAddress = source.tokenAddress) (emptiedSound : emptied.Sound)
    (empty : emptied.balance = 0) (raisedToken : raised.tokenAddress = target.tokenAddress)
    (raisedSound : raised.Sound) (raisedBalance : raised.balance = target.balance + source.balance) :
    Sound env.self { core with
      vaults := update (update core.vaults sourceId (some emptied)) targetId (some raised) } := by
  have sourceNonneg := sound.balance_nonneg foundSource
  have targetNonneg := sound.balance_nonneg foundTarget
  have lowered : Sound env.self { core with
      vaults := update core.vaults sourceId (some emptied)
      ledger := fun token holder => core.ledger token holder -
        if token = source.tokenAddress then source.balance else 0 } := by
    refine sound.write foundSource emptiedToken emptiedSound (le_of_eq empty.symm) fun token => ?_
    rw [empty]
    split_ifs <;> omega
  have still : (update core.vaults sourceId (some emptied)) targetId = some target := by
    rw [update_of_ne ne]
    exact foundTarget
  refine lowered.write still raisedToken raisedSound (by omega) fun token => ?_
  show core.ledger token env.self - _ + _ ≤ core.ledger token env.self
  rw [raisedBalance, sameToken]
  split_ifs <;> omega

/-- The target of a merge with the balance collected so far, in the place of the stored one. -/
def collecting (core : Core) (targetId : VaultId) (target : Vault) (balance : Int) : Core :=
  { core with
    vaults := update core.vaults targetId (some { target with balance := balance }) }

omit sound in
theorem absorbSources_sound (targetId : VaultId) (target : Vault) (sources : List VaultId) :
    ∀ (balance : Int) (s : State), Sound env.self (collecting s.core targetId target balance) →
    (∀ id ∈ sources, id ≠ targetId ∧ ∀ source, s.vaults id = some source →
      source.tokenAddress = target.tokenAddress) →
    (absorbSources sources balance).wp s fun collected t =>
      Sound env.self (collecting t.core targetId target collected) := by
  induction sources with
  | nil =>
    intro balance s sound _
    exact (wp_pure s _ _).mpr sound
  | cons sourceId rest ih =>
    intro balance s sound fits
    obtain ⟨ne, tokens⟩ := fits sourceId mem_cons_self
    simp only [absorbSources, removeOwnerVaultId, removeBeneficiaryVaultId, wp_rules]
    intro source found _
    refine ih _ _ ?_ ?_
    · have foundSource : (collecting s.core targetId target balance).vaults sourceId =
          some source := by
        rw [← found]
        exact update_of_ne ne _ _
      have kept := sound.vaults sourceId source foundSource
      have targetSound : Vault.Sound { target with balance := balance } :=
        sound.vaults targetId _ (update_self _ _ _)
      have moved : Sound env.self { s.core with
          vaults := update (update
            (collecting s.core targetId target balance).vaults sourceId
              (some { source with balance := 0, status := .cancelled })) targetId
              (some { target with balance := balance + source.balance }) } :=
        Sound.move env sound (Ne.symm ne) foundSource (update_self _ _ _)
          (tokens source found) rfl (kept.congr rfl) rfl rfl
          (targetSound.congr rfl) rfl
      simp only [collecting, update_comm (Ne.symm ne), update_idem] at moved
      exact moved
    · intro id member
      refine ⟨(fits id (mem_cons_of_mem sourceId member)).1, fun other found' => ?_⟩
      by_cases same : id = sourceId
      · subst same
        simp only [update_self, Option.some.injEq] at found'
        rw [← found']
        exact tokens source found
      · simp only [update_of_ne same] at found'
        exact (fits id (mem_cons_of_mem sourceId member)).2 other found'

@[simp] theorem mergeVaults_sound (targetId : VaultId) (sources : List VaultId) :
    KeepsSound env s (mergeVaults env targetId sources caller) := by
  simp only [KeepsSound, mergeVaults, wp_rules]
  intro _ _ target found _ _
  refine (validateSources_spec targetId target sources s).mono ?_
  rintro _ t ⟨rfl, checked⟩
  refine absorbSources_sound env targetId target sources target.balance t ?_ fun id member => ?_
  · exact sound.settings found rfl (sound.vaults targetId target found) rfl
  · obtain ⟨ne, source, foundSource, sameToken, -⟩ := checked id member
    refine ⟨ne, fun other found' => ?_⟩
    rw [foundSource] at found'
    cases found'
    exact sameToken

/-! ### Settings -/

@[simp] theorem setBeneficiaries_sound (beneficiaries : List BeneficiaryEntry) :
    KeepsSound env s (setBeneficiaries env id caller beneficiaries) := by
  simp only [KeepsSound, setBeneficiaries, sumBps, wp_rules]
  intro _ _ _ vault found _ _ _ whole
  have kept := sound.vaults id vault found
  refine (wp_forM_invariant (· = s) ?_ s rfl).mono ?_
  · rintro entry _ t rfl
    simp
  · rintro _ t rfl
    exact sound.settings found rfl ⟨le_of_eq whole, kept.limit, kept.burn⟩ rfl

@[simp]
theorem addBeneficiary_sound (percentage : Nat) :
    KeepsSound env s (addBeneficiary env id caller address percentage) := by
  simp only [KeepsSound, addBeneficiary, sumBps, wp_rules]
  intro _ vault found _ _ _ _ _ _ _ whole
  have kept := sound.vaults id vault found
  refine sound.settings found rfl ⟨?_, kept.limit, kept.burn⟩ rfl
  simpa using whole

@[simp] theorem removeBeneficiary_sound :
    KeepsSound env s (removeBeneficiary env id caller address) := by
  simp only [KeepsSound, removeBeneficiary, wp_rules]
  intro _ vault found _ _ _
  have kept := sound.vaults id vault found
  refine sound.settings found rfl ⟨?_, kept.limit, kept.burn⟩ rfl
  have fewer := ((filter_sublist (l := vault.beneficiaries)
    (p := fun entry => decide (entry.address ≠ address))).map (·.bps)).sum_le_sum
      fun _ _ => Nat.zero_le _
  exact fewer.trans kept.shares

@[simp] theorem setBenMinThreshold_sound (minimumThreshold : Int) :
    KeepsSound env s (setBenMinThreshold env id caller address minimumThreshold) := by
  simp only [KeepsSound, setBenMinThreshold, wp_rules]
  intro _ vault found _ _ _ _
  have kept := sound.vaults id vault found
  refine sound.settings found rfl ⟨?_, kept.limit, kept.burn⟩ rfl
  have same : (vault.beneficiaries.map fun entry =>
      if entry.address = address then { entry with minimumThreshold := minimumThreshold }
      else entry).map (·.bps) = vault.beneficiaries.map (·.bps) := by
    rw [map_map]
    refine map_congr_left fun entry _ => ?_
    simp only [Function.comp]
    split_ifs <;> rfl
  have bound := kept.shares
  rw [← same] at bound
  exact bound

@[simp] theorem setSpendingLimit_sound (limit : Option Int) :
    KeepsSound env s (setSpendingLimit env id limit) := by
  simp only [KeepsSound, setSpendingLimit, wp_rules]
  intro vault found _ pos
  have kept := sound.vaults id vault found
  exact sound.settings found rfl ⟨kept.shares, pos, kept.burn⟩ rfl

@[simp] theorem setBurnPercentage_sound (percentage : Nat) :
    KeepsSound env s (setBurnPercentage env id percentage) := by
  simp only [KeepsSound, setBurnPercentage, wp_rules]
  intro vault found _ whole
  have kept := sound.vaults id vault found
  exact sound.settings found rfl ⟨kept.shares, kept.limit, whole⟩ rfl

@[simp]
theorem scheduleBeneficiaryRotation_sound (timestamp : Nat)
    (beneficiaries : List BeneficiaryEntry) :
    KeepsSound env s (scheduleBeneficiaryRotation env id caller timestamp beneficiaries) := by
  simp only [KeepsSound, scheduleBeneficiaryRotation, sumBps, wp_rules]
  intro _ vault found _ _ _ _ whole
  refine (wp_forM_invariant (· = s) ?_ s rfl).mono ?_
  · rintro entry _ t rfl
    simp
  · rintro _ t rfl
    refine ⟨sound.backed, sound.vaults, ?_, sound.noForfeiture⟩
    refine forall_entries_update (fun other schedule _ => sound.rotations other schedule) ?_
    intro entry member
    rcases mem_append.mp member with earlier | added
    · cases before : t.beneficiaries.rotationSchedule id with
      | none => simp [before] at earlier
      | some schedule =>
        rw [before] at earlier
        exact sound.rotations id schedule before entry earlier
    · rw [mem_singleton.mp added]
      exact le_of_eq whole

@[simp] theorem declineBeneficiaryRole_sound :
    KeepsSound env s (declineBeneficiaryRole env id caller) := by
  have none : s.vesting.forfeiture id = none := sound.noForfeiture id
  simp only [KeepsSound, declineBeneficiaryRole, setBeneficiaryStatus, forfeitUnvested, wp_rules, none]
  intro _ vault _ _
  exact ⟨fun _ => sound, fun _ => sound⟩

end Calls

/-! ### Runs -/

/-- The calls that the result is about. The identifiers of a batch withdrawal are distinct. -/
inductive SolvencyCall : Call → Prop
  | admin (call) : SolvencyCall (.admin call)
  | record (call) : SolvencyCall (.record call)
  | createVault (owner beneficiary interval token) :
      SolvencyCall (.createVault owner beneficiary interval token)
  | cloneVault (sourceVaultId newOwner newBeneficiary) :
      SolvencyCall (.cloneVault sourceVaultId newOwner newBeneficiary)
  | deposit (id sender amount) : SolvencyCall (.deposit id sender amount)
  | batchDeposit (sender deposits) : SolvencyCall (.batchDeposit sender deposits)
  | withdraw (id caller amount) : SolvencyCall (.withdraw id caller amount)
  | batchWithdraw (vaultIds amounts caller) (distinct : vaultIds.Nodup) :
      SolvencyCall (.batchWithdraw vaultIds amounts caller)
  | partialLiquidate (id amount percentage) : SolvencyCall (.partialLiquidate id amount percentage)
  | partialRelease (id amount) : SolvencyCall (.partialRelease id amount)
  | triggerRelease (id) : SolvencyCall (.triggerRelease id)
  | cancelVault (id caller) : SolvencyCall (.cancelVault id caller)
  | mergeVaults (targetId sources caller) : SolvencyCall (.mergeVaults targetId sources caller)
  | setBeneficiaries (id caller entries) : SolvencyCall (.setBeneficiaries id caller entries)
  | addBeneficiary (id caller address percentage) :
      SolvencyCall (.addBeneficiary id caller address percentage)
  | removeBeneficiary (id caller address) : SolvencyCall (.removeBeneficiary id caller address)
  | setBenMinThreshold (id caller address threshold) :
      SolvencyCall (.setBenMinThreshold id caller address threshold)
  | declineBeneficiaryRole (id caller) : SolvencyCall (.declineBeneficiaryRole id caller)
  | setSpendingLimit (id limit) : SolvencyCall (.setSpendingLimit id limit)
  | setBurnPercentage (id percentage) : SolvencyCall (.setBurnPercentage id percentage)
  | scheduleBeneficiaryRotation (id caller timestamp entries) :
      SolvencyCall (.scheduleBeneficiaryRotation id caller timestamp entries)

theorem exec_sound (env : Env) {call : Call} (allowed : SolvencyCall call)
    (sound : Sound env.self s.core) : KeepsSound env s (exec env call) := by
  cases allowed with
  | admin call =>
    refine (execAdmin_frame env call s).mono ?_
    rintro _ _ ⟨config, compliance, rfl⟩
    exact sound
  | record call =>
    refine (execRecord_frame env call s).mono fun _ t frame => ?_
    rw [frame.1]
    exact sound
  | createVault =>
    simp only [KeepsSound, exec.eq_def, wp_rules]
    exact createVault_sound env sound _ _ _ _
  | cloneVault =>
    simp only [KeepsSound, exec.eq_def, wp_rules]
    exact cloneVault_sound env sound _ _ _
  | batchWithdraw _ _ _ distinct => exact batchWithdraw_sound env sound _ _ _ distinct
  | _ => simp [exec.eq_def, sound]

/-- An initialised contract with no vaults and nothing stored for any; a token's holdings are never
negative. -/
structure Fresh (host : Host) (s : State) : Prop where
  initialized : s.config.admin.isSome ∧ s.config.tokenAddress.isSome
  noVaults : ∀ id, s.vaults id = none
  noRotations : ∀ id, s.beneficiaries.rotationSchedule id = none
  noForfeiture : ∀ id, s.vesting.forfeiture id = none
  holdings : ∀ token, 0 ≤ s.ledger token host.self

theorem Fresh.sound (fresh : Fresh host s) : Sound host.self s.core := by
  refine ⟨⟨?_, ?_⟩, ?_, ?_, fresh.noForfeiture⟩
  · intro id account found
    simp [accounts, State.core, fresh.noVaults id] at found
  · intro token ids
    have zero : ∀ id ∈ ids, Account.worth token (accounts s.core.vaults id) = 0 := by
      intro id _
      simp [accounts, State.core, fresh.noVaults id, Account.worth]
    rw [Finset.sum_eq_zero zero]
    exact fresh.holdings token
  · intro id vault found
    simp [State.core, fresh.noVaults id] at found
  · intro id schedule found
    simp [State.core, fresh.noRotations id] at found

theorem run_sound {start : State} {history : History}
    (run : ContractRun host start history s) (fresh : Fresh host start)
    (calls : ∀ event ∈ history, SolvencyCall event.input.call) : Sound host.self s.core := by
  refine run.invariant (fun s => Sound host.self s.core)
    (fun _ input => SolvencyCall input.call) fresh.sound ?_ calls
  rintro before input after sound allowed ⟨sameHost, ran⟩
  subst sameHost
  exact exec_sound input.env allowed sound _ _ ran

/-- **Solvency.** In every state that a run of the listed calls reaches, no balance is negative and,
for every token, any set of vaults is worth at most what the contract holds. -/
theorem run_solvent {host : Host} {start s : State} {history : History}
    (run : ContractRun host start history s) (fresh : Fresh host start)
    (calls : ∀ event ∈ history, SolvencyCall event.input.call) :
    Backed (accounts s.vaults) fun token => s.ledger token host.self :=
  (run_sound run fresh calls).backed

theorem initialState_fresh (host : Host) (token admin : Address) (ledger : Ledger Address Address)
    (holdings : ∀ token, 0 ≤ ledger token host.self) :
    Fresh host (initialState token admin ledger) where
  initialized := ⟨rfl, rfl⟩
  noVaults _ := rfl
  noRotations _ := rfl
  noForfeiture _ := rfl
  holdings := holdings

def releaseScenario : List Invocation :=
  [⟨plainEnv 1000 [⟨3⟩], .createVault ⟨3⟩ ⟨4⟩ 86400 none⟩,
   ⟨plainEnv 1001 [⟨3⟩], .deposit 1 ⟨3⟩ 100⟩,
   ⟨plainEnv 1002 [⟨3⟩], .withdraw 1 ⟨3⟩ 30⟩,
   ⟨plainEnv 100000 [], .triggerRelease 1⟩]

theorem run_solvent_releaseScenario :
    (let s := (replay fundedState releaseScenario).2
     Backed (accounts s.vaults) (fun token => s.ledger token plainHost.self) ∧
      (s.vaults 1).map Vault.status = some .released ∧ s.ledger ⟨1⟩ ⟨4⟩ = 70) := by
  have sameHost : ∀ input ∈ releaseScenario, input.env.toHost = plainHost := by
    simp [releaseScenario, plainEnv]
  have listed : ∀ input ∈ releaseScenario, SolvencyCall input.call := by
    simp only [releaseScenario, forall_mem_cons]
    exact ⟨.createVault .., .deposit .., .withdraw .., .triggerRelease .., fun _ none => nomatch none⟩
  refine ⟨run_solvent (replay_run fundedState releaseScenario sameHost) ?_ ?_, ?_, ?_⟩
  · exact initialState_fresh plainHost _ _ _ fun token => by decide
  · exact fun event member => listed _ (replay_inputs fundedState releaseScenario event member)
  · decide +kernel
  · decide +kernel

end EthosContracts.TtlVault
