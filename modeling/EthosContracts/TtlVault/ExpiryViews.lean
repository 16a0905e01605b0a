/-
**What the views say about expiry** (`views.rs`, `beneficiary_workflows.rs`).

Four functions compare the ledger time with `last_check_in + check_in_interval`, each on its own:
`is_expired` adds the hibernated seconds, `get_ttl_remaining` and `deposit` do not know them, and
`get_vault_batch_status` reports an expiry only after the deadline, and only of a locked vault.

`viewsAgree_iff` — **they agree exactly before the deadline, and for a locked vault after it, once
no hibernation is left to count.**
-/

import EthosContracts.TtlVault.Call
import EthosContracts.TtlVault.Rules

namespace EthosContracts.TtlVault

open Lib List

/-! ### The views -/

structure VaultStatusSummary where
  vaultId : VaultId
  status : ReleaseStatus
  balance : Int
  lastCheckIn : Nat
  isExpired : Bool

def statusSummary (env : Env) (id : VaultId) (vault : Vault) : VaultStatusSummary where
  vaultId := id
  status := vault.status
  balance := vault.balance
  lastCheckIn := vault.lastCheckIn
  isExpired := saturatingAdd vault.lastCheckIn vault.checkInInterval < env.now ∧
    vault.status = .locked

/-- Vaults that do not exist are skipped. -/
def getVaultBatchStatus (env : Env) (vaultIds : List VaultId) :
    Contract (List VaultStatusSummary) := do
  require (vaultIds.length ≤ 20) .batchSizeExceeded
  read fun s => vaultIds.filterMap fun id => (s.vaults id).map (statusSummary env id)

/-! ### Agreement -/

/-- `get_vault_batch_status` lists the vault as expired. -/
def ReportedExpired (env : Env) (vaultIds : List VaultId) (id : VaultId) (s : State) : Prop :=
  ∃ summaries, getVaultBatchStatus env vaultIds s = .ok (summaries, s) ∧
    ∃ summary ∈ summaries, summary.vaultId = id ∧ summary.isExpired = true

/-- A deposit into a locked, unpaused vault by its owner, who passes every screening. -/
structure MayDeposit (env : Env) (s : State) (v : Vault) (sender : Address) (amount : Int) : Prop where
  running : s.config.paused = false
  initialized : s.config.admin.isSome = true
  pos : 0 < amount
  signed : sender ≠ env.self ∧ sender ∈ env.signers
  owner : sender = v.owner
  unpaused : v.isPaused = false
  compliant : isAddressCompliant s sender = true
  verified : kycAllows env s sender amount = true
  locked : v.status = .locked

/-- **The views and the deposit agree on what is expired.** -/
structure ViewsAgree (env : Env) (id : VaultId) (s : State) : Prop where
  remaining : isExpired env id s = .ok (true, s) ↔ getTtlRemaining env id s = .ok (none, s)
  batch : ∀ vaultIds, id ∈ vaultIds → vaultIds.length ≤ 20 →
    (isExpired env id s = .ok (true, s) ↔ ReportedExpired env vaultIds id s)
  deposit : ∀ v sender amount, s.vaults id = some v → MayDeposit env s v sender amount →
    (deposit env id sender amount s = .error (.error .vaultExpired) ↔
      isExpired env id s = .ok (true, s))

/-- The time is before the deadline; or it is after it, the vault is locked, and the hibernation on
record, if any, is over and has been made up for. -/
def ViewsDecided (env : Env) (v : Vault) (entry : Option HibernationEntry) : Prop :=
  env.now < v.deadline ∨
    v.deadline < env.now ∧ v.status = .locked ∧
      ∀ h ∈ entry, h.durationSeconds ≤ env.now - h.startedAt ∧
        v.deadline + h.durationSeconds ≤ env.now

section Answers

variable {env : Env} {s : State} {id : VaultId} {v : Vault}

theorem hibernatedSeconds_iff {entry : Option HibernationEntry} {deadline : Nat}
    (reached : deadline ≤ env.now) :
    (∃ hibernated, hibernatedSeconds env entry = some hibernated ∧ deadline + hibernated ≤ env.now) ↔
      ∀ h ∈ entry, h.durationSeconds ≤ env.now - h.startedAt ∧
        deadline + h.durationSeconds ≤ env.now := by
  cases entry with
  | none =>
    constructor
    · intro _ h member
      cases member
    · intro _
      exact ⟨0, rfl, reached⟩
  | some h =>
    simp only [hibernatedSeconds, Option.mem_some_iff, forall_eq']
    by_cases inside : min (env.now - h.startedAt) h.durationSeconds < h.durationSeconds
    · rw [if_pos inside]
      constructor
      · rintro ⟨_, ⟨⟩, _⟩
      · intro ended
        omega
    · rw [if_neg inside]
      constructor
      · rintro ⟨_, ⟨⟩, passed⟩
        exact ⟨by omega, passed⟩
      · intro ended
        exact ⟨h.durationSeconds, rfl, ended.2⟩

theorem isExpired_true_iff (found : s.vaults id = some v) (time : env.now ≤ maxU64) :
    isExpired env id s = .ok (true, s) ↔ v.deadline ≤ env.now ∧ ∀ h ∈ s.checkIns.hibernation id,
        h.durationSeconds ≤ env.now - h.startedAt ∧ v.deadline + h.durationSeconds ≤ env.now := by
  have answer : isExpired env id s = .ok (true, s) ↔
      ∃ hibernated, hibernatedSeconds env (s.checkIns.hibernation id) = some hibernated ∧
        v.deadline + hibernated ≤ env.now := by
    rw [Tx.eq_ok_iff]
    simp only [isExpired, succeeds_rules, found, Option.some.injEq, exists_eq_left']
    cases hibernatedSeconds env (s.checkIns.hibernation id) with
    | none => simp only [succeeds_pure, Bool.false_eq_true, false_and, reduceCtorEq, exists_false]
    | some hibernated =>
      simp only [succeeds_rules, decide_eq_true_eq, and_true, Option.some.injEq, exists_eq_left']
      constructor
      · rintro ⟨_, _, passed⟩
        exact passed
      · intro passed
        exact ⟨by omega, by omega, passed⟩
  rw [answer]
  constructor
  · rintro ⟨hibernated, counted, passed⟩
    have reached : v.deadline ≤ env.now := by omega
    exact ⟨reached, (hibernatedSeconds_iff reached).mp ⟨hibernated, counted, passed⟩⟩
  · rintro ⟨reached, ended⟩
    exact (hibernatedSeconds_iff reached).mpr ended

theorem getTtlRemaining_none_iff (found : s.vaults id = some v) (time : env.now ≤ maxU64) :
    getTtlRemaining env id s = .ok (none, s) ↔ v.deadline ≤ env.now := by
  rw [Tx.eq_ok_iff]
  simp only [getTtlRemaining, succeeds_rules, found]
  by_cases reached : v.deadline ≤ env.now
  · rw [if_pos reached, succeeds_pure]
    exact ⟨fun _ => reached, fun _ => ⟨reached.trans time, rfl, rfl⟩⟩
  · rw [if_neg reached, succeeds_pure]
    constructor
    · rintro ⟨-, ⟨⟩, -⟩
    · intro passed
      exact absurd passed reached

theorem saturatingAdd_lt_iff {a b now : Nat} (time : now ≤ maxU64) :
    saturatingAdd a b < now ↔ a + b < now := by
  unfold saturatingAdd
  omega

theorem reportedExpired_iff {vaultIds : List VaultId} (found : s.vaults id = some v)
    (time : env.now ≤ maxU64) (member : id ∈ vaultIds) (size : vaultIds.length ≤ 20) :
    ReportedExpired env vaultIds id s ↔ v.deadline < env.now ∧ v.status = .locked := by
  have summary : (statusSummary env id v).isExpired = true ↔
      v.deadline < env.now ∧ v.status = .locked := by
    rw [statusSummary, decide_eq_true_eq, saturatingAdd_lt_iff time]
    rfl
  have answer : ∀ summaries, getVaultBatchStatus env vaultIds s = .ok (summaries, s) ↔
      (vaultIds.filterMap fun vaultId => (s.vaults vaultId).map (statusSummary env vaultId)) =
        summaries := by
    intro summaries
    rw [Tx.eq_ok_iff]
    simp only [getVaultBatchStatus, succeeds_rules, size, true_and, and_true]
  unfold ReportedExpired
  simp only [answer, exists_eq_left', mem_filterMap, Option.map_eq_some_iff]
  rw [← summary]
  constructor
  · rintro ⟨_, ⟨vaultId, -, w, stored, rfl⟩, same, expired⟩
    have same : vaultId = id := same
    subst same
    cases stored.symm.trans found
    exact expired
  · intro expired
    exact ⟨_, ⟨id, member, v, found, rfl⟩, rfl, expired⟩

end Answers

section Deposit

variable {env : Env} {s : State} {id : VaultId} {v : Vault} {sender : Address} {amount : Int}

theorem deposit_expired_iff (found : s.vaults id = some v) (time : env.now ≤ maxU64)
    (may : MayDeposit env s v sender amount) :
    deposit env id sender amount s = .error (.error .vaultExpired) ↔ v.deadline ≤ env.now := by
  have unlisted := blacklist_of_isAddressCompliant may.compliant
  have cap : (assertBelowDepositCap v amount).meets s (fun _ _ => True) (· ≠ .error .vaultExpired) := by
    unfold assertBelowDepositCap
    split
    · simp only [checkedAdd, require, meets_bind, meets_ensure, meets_pure]
      simp
    · trivial
  refine not_iff_not.mp ((Tx.ne_error_iff s).trans ?_)
  simp only [deposit, assertNotPaused, requireInitialized, require, requireAuth, loadVault,
    TtlVault.found, assertNotBlacklisted, assertCompliant, checkKycForAmount, assertNotExpired, u64,
    checkedAdd, transfer, saveVault, meets_bind, meets_read, meets_ensure, meets_expect, meets_write,
    meets_pure, found]
  simp [may.running, may.initialized, may.pos, may.signed, ← may.owner, may.unpaused,
    may.compliant, may.verified, may.locked, unlisted, cap]
  omega

end Deposit

/-- **The views agree exactly where the times leave no doubt.** -/
theorem viewsAgree_iff {env : Env} {s : State} {id : VaultId} {v : Vault}
    (found : s.vaults id = some v) (time : env.now ≤ maxU64) :
    ViewsAgree env id s ↔ ViewsDecided env v (s.checkIns.hibernation id) := by
  have expired := isExpired_true_iff found time
  have remaining := getTtlRemaining_none_iff found time
  have single : [id].length ≤ 20 := by
    rw [length_singleton]
    decide
  constructor
  · intro agree
    by_cases reached : v.deadline ≤ env.now
    · -- nothing remains, so the other two views must say that the vault is expired
      have isExpired := agree.remaining.mpr (remaining.mpr reached)
      have reported := (agree.batch [id] mem_cons_self single).mp isExpired
      rw [reportedExpired_iff found time mem_cons_self single] at reported
      exact .inr ⟨reported.1, reported.2, (expired.mp isExpired).2⟩
    · exact .inl (Nat.lt_of_not_le reached)
  · intro decided
    have same : (v.deadline ≤ env.now ∧ ∀ h ∈ s.checkIns.hibernation id,
          h.durationSeconds ≤ env.now - h.startedAt ∧ v.deadline + h.durationSeconds ≤ env.now) ↔
        v.deadline ≤ env.now := by
      rcases decided with before | ⟨after, -, ended⟩
      · exact ⟨fun both => both.1, fun reached => absurd reached (Nat.not_le_of_lt before)⟩
      · exact ⟨fun both => both.1, fun reached => ⟨reached, ended⟩⟩
    refine ⟨?_, fun vaultIds member size => ?_, fun w sender amount stored may => ?_⟩
    · rw [expired, remaining, same]
    · rw [expired, same, reportedExpired_iff found time member size]
      rcases decided with before | ⟨after, locked, -⟩
      · constructor
        · omega
        · omega
      · exact ⟨fun _ => ⟨after, locked⟩, fun _ => after.le⟩
    · rw [deposit_expired_iff stored time may, expired, same]
      cases stored.symm.trans found
      rfl

def hibernatingVault : Scenario :=
  [(1, ⟨3⟩, .createVault ⟨3⟩ ⟨4⟩ 100 none), (50, ⟨3⟩, .record (.enterHibernation 1 ⟨3⟩ 60))]

/-- Long after its hibernation all views call the vault expired. -/
theorem viewsAgree_hibernatingVault :
    ViewsAgree (plainEnv 161 [⟨3⟩]) 1 (played hibernatingVault).2 ∧
      isExpired (plainEnv 161 [⟨3⟩]) 1 (played hibernatingVault).2 =
        .ok (true, (played hibernatingVault).2) := by
  refine ⟨(viewsAgree_iff rfl (by decide)).mpr (.inr ⟨by decide +kernel, rfl, ?_⟩), rfl⟩
  intro h member
  cases member
  decide +kernel

def wakingVault : Scenario :=
  [(1, ⟨3⟩, .createVault ⟨3⟩ ⟨4⟩ 100 none)]

/-- At the second of its deadline a vault is expired, and the batch view does not say so; during a
hibernation it is not expired, and yet nothing remains and deposits are refused. -/
theorem wakingVault_not_viewsAgree :
    PlainRun (played wakingVault).1 (played wakingVault).2 ∧
      isExpired (plainEnv 101 [⟨3⟩]) 1 (played wakingVault).2 = .ok (true, (played wakingVault).2) ∧
      ¬ ReportedExpired (plainEnv 101 [⟨3⟩]) [1] 1 (played wakingVault).2 ∧
      ¬ ViewsAgree (plainEnv 101 [⟨3⟩]) 1 (played wakingVault).2 ∧
    PlainRun (played hibernatingVault).1 (played hibernatingVault).2 ∧
      isExpired (plainEnv 105 [⟨3⟩]) 1 (played hibernatingVault).2 ≠
        .ok (true, (played hibernatingVault).2) ∧
      getTtlRemaining (plainEnv 105 [⟨3⟩]) 1 (played hibernatingVault).2 =
        .ok (none, (played hibernatingVault).2) ∧
      deposit (plainEnv 105 [⟨3⟩]) 1 ⟨3⟩ 5 (played hibernatingVault).2 =
        .error (.error .vaultExpired) ∧
      ¬ ViewsAgree (plainEnv 105 [⟨3⟩]) 1 (played hibernatingVault).2 := by
  have unreported : ¬ ReportedExpired (plainEnv 101 [⟨3⟩]) [1] 1 (played wakingVault).2 := by
    intro ⟨summaries, answer, summary, member, _, expired⟩
    cases answer
    obtain rfl := mem_singleton.mp member
    cases expired
  refine ⟨plainInputs_run wakingVault, rfl, unreported, fun agree => ?_,
    plainInputs_run hibernatingVault, nofun, rfl, rfl, fun agree => ?_⟩
  · exact unreported ((agree.batch [1] mem_cons_self (by decide)).mp rfl)
  · cases agree.remaining.mpr rfl

end EthosContracts.TtlVault
