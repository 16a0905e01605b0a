/-
**The loops of the batch calls.**

`batch_withdraw`, `batch_deposit` and `merge_vaults` run two loops over their list: one that only
checks, against the state before the call, and one that only writes.
-/

import EthosContracts.TtlVault.Payments
import EthosContracts.TtlVault.Settings

namespace EthosContracts.TtlVault

open Lib Function List

/-! ### Listed amounts -/

/-- The sum of the amounts listed for a vault; repeated identifiers add up. -/
def listed : List (VaultId × Int) → VaultId → Int
  | [], _ => 0
  | (vaultId, amount) :: rest, id => (if vaultId = id then amount else 0) + listed rest id

variable {entries : List (VaultId × Int)} {id : VaultId}

theorem listed_of_notMem (absent : id ∉ entries.map Prod.fst) : listed entries id = 0 := by
  induction entries with
  | nil => rfl
  | cons entry rest ih =>
    simp only [map_cons, mem_cons, not_or] at absent
    rw [listed, if_neg (Ne.symm absent.1), ih absent.2, Int.zero_add]

theorem listed_nonneg (pos : ∀ entry ∈ entries, 0 < entry.2)
    (id : VaultId) : 0 ≤ listed entries id := by
  induction entries with
  | nil => exact le_refl 0
  | cons entry rest ih =>
    have here := pos entry mem_cons_self
    have later := ih (forall_mem_cons.mp pos).2
    rw [listed]
    split_ifs <;> omega

/-! ### Withdrawals -/

/-- What the first loop of `batch_withdraw` establishes about an entry. -/
structure WithdrawalChecked (s : State) (caller : Address) (entry : VaultId × Int) : Prop where
  pos : 0 < entry.2
  vault : ∃ vault, s.vaults entry.1 = some vault ∧ caller = vault.owner ∧
    vault.status = .locked ∧ entry.2 ≤ vault.balance

theorem validateWithdrawals_spec (env : Env) (caller : Address) (entries : List (VaultId × Int))
    (s : State) : (validateWithdrawals env caller entries).wp s fun _ t =>
      t = s ∧ ∀ entry ∈ entries, WithdrawalChecked s caller entry := by
  unfold validateWithdrawals
  refine wp_forM_checks _ fun entry => ?_
  simp only [wp_rules]
  intro pos vault found owner locked enough
  exact ⟨trivial, pos, vault, found, owner, locked, enough⟩

def Vault.debit (vault : Vault) (amount : Int) : Vault :=
  { vault with balance := vault.balance - amount }

/-- The second loop reads the vaults again, so repeated identifiers are all deducted. -/
theorem applyWithdrawals_spec (env : Env) (caller defaultToken : Address)
    (entries : List (VaultId × Int)) : ∀ s,
    (applyWithdrawals env caller defaultToken entries).wp s fun _ t =>
      (∃ vaults ledger payouts auditLog, t = { s with
        vaults := vaults, ledger := ledger, payouts := payouts, withdrawals.auditLog := auditLog }) ∧
      ∀ id, t.vaults id = (s.vaults id).map (·.debit (listed entries id)) := by
  unfold applyWithdrawals
  induction entries with
  | nil =>
    intro s
    rw [wp_forM_nil]
    refine ⟨⟨_, _, _, _, rfl⟩, fun id => ?_⟩
    cases s.vaults id with
    | none => rfl
    | some vault => simp [Vault.debit, listed]
  | cons entry rest ih =>
    intro s
    rw [wp_forM_cons]
    simp only [wp_rules]
    intro vault found _ after _ _ _ _
    refine (ih _).mono ?_
    rintro _ t ⟨⟨vaults, ledger, payouts, auditLog, rfl⟩, later⟩
    refine ⟨⟨_, _, _, _, rfl⟩, fun id => ?_⟩
    rw [later id, listed]
    by_cases same : id = entry.1
    · subst same
      simp [found, Vault.debit, Int.sub_sub]
    · simp [same, Ne.symm same]

/-! ### Deposits -/

/-- What the first loop of `batch_deposit` establishes about an entry. -/
structure DepositChecked (env : Env) (s : State) (entry : ValidatedDeposit) : Prop where
  pos : 0 < entry.amount
  stored : s.vaults entry.vaultId = some entry.vault
  locked : entry.vault.status = .locked
  deadline : entry.vault.deadline ≤ maxU64
  notExpired : env.now < entry.vault.deadline

def ValidatedDeposit.request (entry : ValidatedDeposit) : VaultId × Int :=
  (entry.vaultId, entry.amount)

theorem validateDeposits_spec (env : Env) (deposits : List (VaultId × Int)) : ∀ total s,
    (validateDeposits env deposits total).wp s fun validated t =>
      t = s ∧ validated.1.map (·.request) = deposits ∧
      (∀ entry ∈ validated.1, DepositChecked env s entry) ∧
      validated.2 = total + (deposits.map Prod.snd).sum := by
  induction deposits with
  | nil =>
    intro total s
    simp [validateDeposits]
  | cons deposit rest ih =>
    intro total s
    simp only [validateDeposits, wp_rules]
    intro pos vault found locked deadline notExpired _ _ _ _
    refine (ih (total + deposit.2) s).mono ?_
    rintro validated t ⟨rfl, requests, checked, sum⟩
    refine ⟨rfl, ?_, ?_, ?_⟩
    · rw [map_cons, requests]
      rfl
    · intro entry member
      rcases mem_cons.mp member with same | later
      · rw [same]
        exact ⟨pos, found, locked, deadline, notExpired⟩
      · exact checked entry later
    · rw [sum, map_cons, sum_cons, Int.add_assoc]

/-- The copy of an accepted deposit's vault, with the amount added. -/
def ValidatedDeposit.credited (entry : ValidatedDeposit) : Vault :=
  { entry.vault with balance := entry.vault.balance + entry.amount }

def writeBack : List ValidatedDeposit → (VaultId → Option Vault) → VaultId → Option Vault
  | [], vaults => vaults
  | entry :: rest, vaults =>
    writeBack rest (update vaults entry.vaultId (some entry.credited))

/-- The second loop writes back the copies of the first, so of repeated identifiers only the last
one counts. -/
theorem applyDeposits_spec (defaultToken : Address) (validated : List ValidatedDeposit) : ∀ s,
    (applyDeposits defaultToken validated).wp s fun _ t =>
      t = { s with vaults := writeBack validated s.vaults } ∧
      ∀ entry ∈ validated, entry.vault.tokenAddress = defaultToken ∧
        InI128 (entry.vault.balance + entry.amount) := by
  unfold applyDeposits
  induction validated with
  | nil =>
    intro s
    rw [wp_forM_nil]
    exact ⟨rfl, by simp⟩
  | cons entry rest ih =>
    intro s
    rw [wp_forM_cons]
    simp only [wp_rules]
    intro token fits
    refine (ih _).mono ?_
    rintro _ t ⟨rfl, later⟩
    refine ⟨rfl, fun other member => ?_⟩
    rcases mem_cons.mp member with same | earlier
    · rw [same]
      exact ⟨token, fits⟩
    · exact later other earlier

theorem writeBack_of_notMem {validated : List ValidatedDeposit}
    (absent : id ∉ validated.map (·.vaultId)) (vaults : VaultId → Option Vault) :
    writeBack validated vaults id = vaults id := by
  induction validated generalizing vaults with
  | nil => rfl
  | cons entry rest ih =>
    simp only [map_cons, mem_cons, not_or] at absent
    rw [writeBack, ih absent.2, update_of_ne absent.1]

/-! ### Merging -/

theorem validateSources_spec (targetId : VaultId) (target : Vault) (sources : List VaultId)
    (s : State) :
    (validateSources targetId target sources).wp s fun _ t => t = s ∧
      ∀ id ∈ sources, id ≠ targetId ∧ ∃ source, s.vaults id = some source ∧
        source.tokenAddress = target.tokenAddress ∧ source.status = .locked := by
  unfold validateSources
  refine wp_forM_checks _ fun sourceId => ?_
  simp only [wp_rules]
  intro ne source found _ sameToken locked
  exact ⟨trivial, ne, source, found, sameToken, locked⟩

end EthosContracts.TtlVault
