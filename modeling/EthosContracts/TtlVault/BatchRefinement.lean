/-
**The batch calls against their single counterparts.**

`batch_withdraw` and `batch_deposit` repeat some of the guards of `withdraw` and `deposit` and leave
out others (`WithdrawPasses`, `DepositPasses`).

`batch_refines_iff` — for a list with distinct identifiers, a batch call that succeeds can be
replaced by the single calls (`withdrawEach`, `depositEach`) exactly if its entries pass the guards
that it leaves out.
-/

import EthosContracts.TtlVault.BatchAmounts

namespace EthosContracts.TtlVault

open Lib Function List

variable {amount : Int} {vault : Vault} {id : VaultId}

/-! ### Withdrawal limits -/

def windowUsed (now : Nat) (withdrawn : Int) (resetAt : Nat) : Int :=
  if resetAt ≤ now then 0 else withdrawn

def windowEnd (now period resetAt : Nat) : Nat :=
  if resetAt ≤ now then now + period else resetAt

def currentTracker (env : Env) (s : State) (id : VaultId) : WithdrawalTracker :=
  (s.withdrawals.tracker id).getD ⟨0, env.now + 86400, 0, env.now + 604800, 0, env.now + 2592000⟩

/-- The amount fits a window's limit, and a new window's end is a `u64`. -/
structure FitsWindow (now period : Nat) (withdrawn : Int) (resetAt : Nat) (amount limit : Int) :
    Prop where
  resets : resetAt ≤ now → now + period ≤ maxU64
  total : InI128 (windowUsed now withdrawn resetAt + amount)
  allowed : windowUsed now withdrawn resetAt + amount ≤ limit

/-- The amount is within the limits set for the vault. -/
structure WithinLimits (env : Env) (s : State) (id : VaultId) (amount : Int)
    (limits : WithdrawalLimit) : Prop where
  starts : s.withdrawals.tracker id = none → env.now + 2592000 ≤ maxU64
  daily : FitsWindow env.now 86400 (currentTracker env s id).dailyWithdrawn
    (currentTracker env s id).dailyResetAt amount limits.dailyLimit
  weekly : FitsWindow env.now 604800 (currentTracker env s id).weeklyWithdrawn
    (currentTracker env s id).weeklyResetAt amount limits.weeklyLimit
  monthly : FitsWindow env.now 2592000 (currentTracker env s id).monthlyWithdrawn
    (currentTracker env s id).monthlyResetAt amount limits.monthlyLimit

theorem succeeds_resetWindow (now period : Nat) (withdrawn : Int) (resetAt : Nat) (s : State)
    (Q : Int × Nat → State → Prop) :
    (resetWindow now period withdrawn resetAt).succeeds s Q ↔
      (resetAt ≤ now → now + period ≤ maxU64) ∧
        Q (windowUsed now withdrawn resetAt, windowEnd now period resetAt) s := by
  unfold resetWindow windowUsed windowEnd
  by_cases passed : resetAt ≤ now
  · rw [if_pos passed, if_pos passed, if_pos passed]
    simp only [succeeds_rules, passed, forall_const]
  · rw [if_neg passed, if_neg passed, if_neg passed]
    simp only [succeeds_pure, passed, false_imp_iff, true_and]

theorem succeeds_loadWithdrawalTracker (env : Env) (id : VaultId) (s : State)
    (Q : WithdrawalTracker → State → Prop) :
    (loadWithdrawalTracker env id).succeeds s Q ↔
      (s.withdrawals.tracker id = none → env.now + 2592000 ≤ maxU64) ∧
        Q (currentTracker env s id) s := by
  simp only [loadWithdrawalTracker, currentTracker, succeeds_bind, succeeds_read]
  cases s.withdrawals.tracker id with
  | some tracker => simp
  | none =>
    simp only [succeeds_rules, Option.getD_none, forall_const]
    constructor
    · rintro ⟨-, -, fits, holds⟩
      exact ⟨fits, holds⟩
    · rintro ⟨fits, holds⟩
      exact ⟨by omega, by omega, fits, holds⟩

/-- The tracker after a withdrawal; without limits it stays. -/
def chargedTracker (env : Env) (s : State) (id : VaultId) (amount : Int) :
    Option WithdrawalTracker :=
  if (s.withdrawals.limit id).isSome then
    let tracker := currentTracker env s id
    some ⟨windowUsed env.now tracker.dailyWithdrawn tracker.dailyResetAt + amount,
      windowEnd env.now 86400 tracker.dailyResetAt,
      windowUsed env.now tracker.weeklyWithdrawn tracker.weeklyResetAt + amount,
      windowEnd env.now 604800 tracker.weeklyResetAt,
      windowUsed env.now tracker.monthlyWithdrawn tracker.monthlyResetAt + amount,
      windowEnd env.now 2592000 tracker.monthlyResetAt⟩
  else s.withdrawals.tracker id

theorem succeeds_checkWithdrawalLimits (env : Env) (id : VaultId) (amount : Int) (s : State)
    (Q : Unit → State → Prop) : (checkWithdrawalLimits env id amount).succeeds s Q ↔
      (∀ limits ∈ s.withdrawals.limit id, WithinLimits env s id amount limits) ∧
        Q () { s with
          withdrawals.tracker := update s.withdrawals.tracker id
            (chargedTracker env s id amount) } := by
  simp only [checkWithdrawalLimits, chargedTracker, succeeds_rules]
  cases s.withdrawals.limit id with
  | none => simp
  | some limits =>
    simp only [succeeds_rules, succeeds_loadWithdrawalTracker, succeeds_resetWindow, Option.mem_def,
      Option.some.injEq, forall_eq', Option.isSome_some, if_true]
    constructor
    · rintro ⟨starts, dailyReset, weeklyReset, monthlyReset, dailyTotal, daily, weeklyTotal, weekly,
        monthlyTotal, monthly, holds⟩
      exact ⟨⟨starts, ⟨dailyReset, dailyTotal, daily⟩, ⟨weeklyReset, weeklyTotal, weekly⟩,
        ⟨monthlyReset, monthlyTotal, monthly⟩⟩, holds⟩
    · rintro ⟨⟨starts, daily, weekly, monthly⟩, holds⟩
      exact ⟨starts, daily.resets, weekly.resets, monthly.resets, daily.total, daily.allowed,
        weekly.total, weekly.allowed, monthly.total, monthly.allowed, holds⟩

/-! ### One withdrawal -/

/-- The checks of `withdraw` that the batch call does not make. -/
structure WithdrawPasses (env : Env) (s : State) (id : VaultId) (amount : Int)
    (vault : Vault) : Prop where
  notPaused : vault.isPaused = false
  approved : ∀ threshold ∈ vault.withdrawalApprovalThreshold, amount ≤ threshold
  limits : ∀ limits ∈ s.withdrawals.limit id, WithinLimits env s id amount limits
  whitelisted : isWhitelisted s id vault.owner = true
  compliant : isAddressCompliant s vault.owner = true
  verified : kycAllows env s vault.owner amount = true
  dated : env.now + 86400 ≤ maxU64
  numbered : s.withdrawals.reversalCounter id + 1 ≤ maxU64

/-- Two states agree on what a withdrawal from a vault is checked against. -/
structure SameChecks (s t : State) (id : VaultId) : Prop where
  compliance : t.compliance = s.compliance
  limit : t.withdrawals.limit id = s.withdrawals.limit id
  tracker : t.withdrawals.tracker id = s.withdrawals.tracker id
  whitelist : t.withdrawals.whitelist id = s.withdrawals.whitelist id
  counter : t.withdrawals.reversalCounter id = s.withdrawals.reversalCounter id

variable {s t b u : State} {env : Env} {after : Ledger Address Address} {rest : List VaultId}

theorem SameChecks.symm (same : SameChecks s t id) : SameChecks t s id :=
  ⟨same.compliance.symm, same.limit.symm, same.tracker.symm, same.whitelist.symm, same.counter.symm⟩

theorem SameChecks.passes (same : SameChecks s t id)
    (passes : WithdrawPasses env s id amount vault) :
    WithdrawPasses env t id amount vault := by
  have tracker : currentTracker env t id = currentTracker env s id := by
    unfold currentTracker
    rw [same.tracker]
  refine ⟨passes.notPaused, passes.approved, ?_, ?_, ?_, ?_, passes.dated, ?_⟩
  · intro limits stored
    rw [same.limit] at stored
    obtain ⟨starts, daily, weekly, monthly⟩ := passes.limits limits stored
    rw [← tracker] at daily weekly monthly
    rw [← same.tracker] at starts
    exact ⟨starts, daily, weekly, monthly⟩
  · unfold isWhitelisted
    rw [same.whitelist]
    exact passes.whitelisted
  · unfold isAddressCompliant
    rw [same.compliance]
    exact passes.compliant
  · unfold kycAllows isKycVerified
    rw [same.compliance]
    exact passes.verified
  · rw [same.counter]
    exact passes.numbered

/-- The state after a withdrawal: the vault is debited, its owner paid, and the vault's own
withdrawal records change. -/
structure Withdrawn (env : Env) (id : VaultId) (amount : Int) (vault : Vault) (s t : State) :
    Prop where
  frame : t = { s with
    vaults := t.vaults, ledger := t.ledger, payouts := t.payouts, withdrawals := t.withdrawals }
  vaults : t.vaults = update s.vaults id (some (vault.debit amount))
  ledger : s.ledger.transfer vault.tokenAddress env.self vault.owner amount = some t.ledger
  others : ∀ other, other ≠ id → SameChecks s t other

theorem succeeds_withdraw {caller : Address} {Q : State → Prop} {R : Prop}
    (running : s.config.paused = false)
    (auth : caller ≠ env.self ∧ caller ∈ env.signers)
    (checked : WithdrawalChecked s caller (id, amount)) (found : s.vaults id = some vault)
    (fits : InI128 (vault.balance - amount))
    (moved : s.ledger.transfer vault.tokenAddress env.self vault.owner amount = some after)
    (next : ∀ t, Withdrawn env id amount vault s t → (Q t ↔ R)) :
    (withdraw env id caller amount).succeeds s (fun _ => Q) ↔
      WithdrawPasses env s id amount vault ∧ R := by
  obtain ⟨stored, same, owner, locked, enough⟩ := checked.vault
  obtain rfl := Option.mem_unique same found
  have active : stored.status ≠ .emergencyFrozen := by simp [locked]
  simp only [withdraw, recordWithdrawalForReversal, succeeds_rules, succeeds_checkWithdrawalLimits,
    found, moved, update_self, Option.some.injEq, exists_eq_left']
  rw [next]
  · constructor
    · rintro ⟨-, -, -, notPaused, -, -, -, -, -, approved, limits, whitelisted, compliant, verified, -,
        dated, numbered, holds⟩
      exact ⟨⟨notPaused, approved, limits, whitelisted, compliant, verified, dated, numbered⟩, holds⟩
    · rintro ⟨passes, holds⟩
      exact ⟨running, checked.pos, auth, passes.notPaused, owner, active, locked, owner ▸ auth.1,
        enough, passes.approved, passes.limits, passes.whitelisted, passes.compliant,
        passes.verified, fits, passes.dated, passes.numbered, holds⟩
  · exact ⟨rfl, rfl, moved, fun other ne => ⟨rfl, rfl, update_of_ne ne _ _, rfl,
      update_of_ne ne _ _⟩⟩

/-! ### A list of withdrawals -/

def withdrawEach (env : Env) (caller : Address) (entries : List (VaultId × Int)) : Contract Unit :=
  entries.forM fun entry => withdraw env entry.1 caller entry.2

/-- The entries pass the guards that `batch_withdraw` leaves out. -/
def WithdrawalsPass (env : Env) (s : State) (entries : List (VaultId × Int)) : Prop :=
  ∀ entry ∈ entries, ∀ vault, s.vaults entry.1 = some vault →
    WithdrawPasses env s entry.1 entry.2 vault

/-- The single calls, in state `u`, keep up with the second loop of `batch_withdraw`, in state `b`:
what is left to do is as it was in the state `s` before both. -/
structure Follows (s b u : State) (ids : List VaultId) : Prop where
  vaults : u.vaults = b.vaults
  ledger : u.ledger = b.ledger
  config : u.config = s.config
  untouched : ∀ id ∈ ids, b.vaults id = s.vaults id
  checks : ∀ id ∈ ids, SameChecks s u id

theorem applyWithdrawals_cons {token : Address} {rest : List (VaultId × Int)}
    (ran : applyWithdrawals env caller token ((id, amount) :: rest) b = .ok ((), t)) :
    ∃ vault after b', b.vaults id = some vault ∧ InI128 (vault.balance - amount) ∧
      b.ledger.transfer vault.tokenAddress env.self vault.owner amount = some after ∧
      b'.vaults = update b.vaults id (some (vault.debit amount)) ∧
      b'.ledger = after ∧ applyWithdrawals env caller token rest b' = .ok ((), t) := by
  unfold applyWithdrawals at ran
  have outcome : Tx.succeeds _ b fun _ u => u = t := ⟨_, _, ran, rfl⟩
  rw [succeeds_forM_cons] at outcome
  simp only [succeeds_rules] at outcome
  obtain ⟨vault, found, rfl, after, moved, fits, _, _, _, u, later, rfl⟩ := outcome
  exact ⟨vault, after, _, found, fits, moved, rfl, rfl, later⟩

theorem Follows.step {b' u' : State}
    (follows : Follows s b u (id :: rest)) (fresh : id ∉ rest)
    (single : Withdrawn env id amount vault u u')
    (vaults : b'.vaults = update b.vaults id (some (vault.debit amount)))
    (moved : b.ledger.transfer vault.tokenAddress env.self vault.owner amount = some b'.ledger) :
    Follows s b' u' rest := by
  have ne : ∀ other ∈ rest, other ≠ id := by
    intro other member same
    exact fresh (same ▸ member)
  refine ⟨?_, ?_, ?_, ?_, ?_⟩
  · rw [single.vaults, vaults, follows.vaults]
  · have again := single.ledger
    rw [follows.ledger, moved] at again
    exact (Option.some.inj again).symm
  · rw [single.frame]
    exact follows.config
  · intro other member
    rw [vaults, update_of_ne (ne other member)]
    exact follows.untouched other (mem_cons_of_mem id member)
  · intro other member
    have before := follows.checks other (mem_cons_of_mem id member)
    have after := single.others other (ne other member)
    exact ⟨after.compliance.trans before.compliance, after.limit.trans before.limit,
      after.tracker.trans before.tracker, after.whitelist.trans before.whitelist,
      after.counter.trans before.counter⟩

section Withdrawals

variable {env : Env} {caller token : Address} {s t : State}

theorem withdrawEach_iff {Q : State → Prop} (agrees : ∀ u, u.vaults = t.vaults → Q u)
    (running : s.config.paused = false)
    (auth : caller ≠ env.self ∧ caller ∈ env.signers) (entries : List (VaultId × Int)) : ∀ b u,
    Follows s b u (entries.map Prod.fst) → (entries.map Prod.fst).Nodup →
    applyWithdrawals env caller token entries b = .ok ((), t) →
    (∀ entry ∈ entries, WithdrawalChecked s caller entry) →
    ((withdrawEach env caller entries).succeeds u (fun _ => Q) ↔
      WithdrawalsPass env s entries) := by
  unfold withdrawEach WithdrawalsPass
  induction entries with
  | nil =>
    intro b u follows _ ran _
    cases ran
    rw [succeeds_forM_nil]
    exact iff_of_true (agrees u follows.vaults) (forall_mem_nil _)
  | cons entry rest ih =>
    obtain ⟨id, amount⟩ := entry
    intro b u follows distinct ran checked
    rw [map_cons] at follows distinct
    obtain ⟨fresh, distinctRest⟩ := nodup_cons.mp distinct
    obtain ⟨⟨pos, stored⟩, checkedRest⟩ := forall_mem_cons.mp checked
    obtain ⟨vault, after, b', found, fits, moved, vaults, rfl, later⟩ := applyWithdrawals_cons ran
    have before := follows.untouched id mem_cons_self
    have same := follows.checks id mem_cons_self
    rw [← before, ← follows.vaults] at stored
    rw [← follows.vaults] at found
    rw [succeeds_forM_cons, forall_mem_cons, ← before, ← follows.vaults]
    refine (succeeds_withdraw (follows.config ▸ running) auth ⟨pos, stored⟩ found fits
      (follows.ledger ▸ moved) fun u' changed => ih b' u' (follows.step fresh changed vaults moved)
        distinctRest later checkedRest).trans (and_congr_left fun _ => ?_)
    refine ⟨fun passes vault' found' => ?_, fun here => same.passes (here vault found)⟩
    cases found.symm.trans found'
    exact same.symm.passes passes

theorem batchWithdraw_refines {vaultIds : List VaultId} {amounts : List Int}
    (distinct : vaultIds.Nodup) (ran : batchWithdraw env vaultIds amounts caller s = .ok ((), t)) :
    (withdrawEach env caller (vaultIds.zip amounts)).succeeds s
      (fun _ u => ∀ id, u.balance id = t.balance id) ↔
      WithdrawalsPass env s (vaultIds.zip amounts) := by
  have outcome : Tx.succeeds _ s fun _ u => u = t := ⟨_, _, ran, rfl⟩
  simp only [batchWithdraw, succeeds_rules] at outcome
  obtain ⟨running, sameLength, auth, _, s', validated, token, -, _, u, applied, rfl⟩ := outcome
  obtain ⟨rfl, checked⟩ := validateWithdrawals_spec env caller _ s _ _ validated
  rw [← map_fst_zip (le_of_eq sameLength)] at distinct
  have start : Follows s' s' s' ((vaultIds.zip amounts).map Prod.fst) :=
    ⟨rfl, rfl, rfl, fun _ _ => rfl, fun _ _ => ⟨rfl, rfl, rfl, rfl, rfl⟩⟩
  refine withdrawEach_iff ?_ running auth _ s' s' start distinct applied checked
  intro u' vaults id
  unfold State.balance
  rw [vaults]

end Withdrawals

/-! ### One deposit -/

/-- The checks of `deposit` that the batch call does not make. -/
structure DepositPasses (env : Env) (s : State) (sender : Address) (amount : Int)
    (vault : Vault) : Prop where
  initialized : s.config.admin.isSome
  owned : sender = vault.owner
  notPaused : vault.isPaused = false
  compliant : isAddressCompliant s sender = true
  verified : kycAllows env s sender amount = true
  capped : ∀ cap ∈ vault.maxDepositAmount, vault.balance + amount ≤ cap

theorem succeeds_assertBelowDepositCap (vault : Vault) (amount : Int) (s : State)
    (Q : Unit → State → Prop) :
    (assertBelowDepositCap vault amount).succeeds s Q ↔
      (∀ cap ∈ vault.maxDepositAmount, InI128 (vault.balance + amount) ∧
        vault.balance + amount ≤ cap) ∧ Q () s := by
  unfold assertBelowDepositCap
  cases vault.maxDepositAmount <;> simp [and_assoc]

theorem succeeds_deposit {sender : Address} {entry : ValidatedDeposit} {Q : Unit → State → Prop}
    (running : s.config.paused = false)
    (auth : sender ≠ env.self ∧ sender ∈ env.signers) (checked : DepositChecked env s entry)
    (fits : InI128 (entry.vault.balance + entry.amount))
    (moved : s.ledger.transfer entry.vault.tokenAddress sender env.self entry.amount = some after) :
    (deposit env entry.vaultId sender entry.amount).succeeds s Q ↔
      DepositPasses env s sender entry.amount entry.vault ∧ Q () { s with
        vaults := update s.vaults entry.vaultId (some entry.credited), ledger := after } := by
  simp only [deposit, succeeds_rules, succeeds_assertBelowDepositCap, checked.stored, moved,
    Option.some.injEq, exists_eq_left']
  constructor
  · rintro ⟨-, initialized, -, -, owned, -, notPaused, compliant, verified, -, -, -, capped, -, holds⟩
    exact ⟨⟨initialized, owned, notPaused, compliant, verified, fun cap set => (capped cap set).2⟩,
      holds⟩
  · rintro ⟨passes, holds⟩
    exact ⟨running, passes.initialized, checked.pos, auth, passes.owned,
      blacklist_of_isAddressCompliant passes.compliant, passes.notPaused, passes.compliant,
      passes.verified, checked.locked, checked.deadline, checked.notExpired,
      fun cap stored => ⟨fits, passes.capped cap stored⟩, fits, holds⟩

/-! ### A list of deposits -/

def depositEach (env : Env) (sender : Address) (deposits : List (VaultId × Int)) : Contract Unit :=
  deposits.forM fun entry => deposit env entry.1 sender entry.2

/-- The entries pass the guards that `batch_deposit` leaves out. -/
def DepositsPass (env : Env) (s : State) (sender : Address) (deposits : List (VaultId × Int)) :
    Prop :=
  ∀ entry ∈ deposits, ∀ vault, s.vaults entry.1 = some vault →
    DepositPasses env s sender entry.2 vault

/-- What is left to deposit is, in state `u`, as it was in the state `s` before the first deposit.
-/
structure Pending (s u : State) (ids : List VaultId) : Prop where
  config : u.config = s.config
  compliance : u.compliance = s.compliance
  untouched : ∀ id ∈ ids, u.vaults id = s.vaults id

theorem Pending.passes_iff {ids : List VaultId} (pending : Pending s u ids)
    (env : Env) (sender : Address) (amount : Int) (vault : Vault) :
    DepositPasses env u sender amount vault ↔ DepositPasses env s sender amount vault := by
  have compliant : isAddressCompliant u sender = isAddressCompliant s sender := by
    unfold isAddressCompliant
    rw [pending.compliance]
  have verified : kycAllows env u sender amount = kycAllows env s sender amount := by
    unfold kycAllows isKycVerified
    rw [pending.compliance]
  constructor
  all_goals
    intro ⟨initialized, owned, notPaused, isCompliant, isVerified, capped⟩
    exact ⟨pending.config ▸ initialized, owned, notPaused, compliant ▸ isCompliant,
      verified ▸ isVerified, capped⟩

theorem Pending.step (pending : Pending s u (id :: rest))
    (fresh : id ∉ rest) (vault : Vault) (ledger : Ledger Address Address) :
    Pending s { u with
      vaults := update u.vaults id (some vault), ledger := ledger } rest := by
  refine ⟨pending.config, pending.compliance, fun other member => ?_⟩
  have ne : other ≠ id := fun same => fresh (same ▸ member)
  show update u.vaults id (some vault) other = _
  rw [update_of_ne ne]
  exact pending.untouched other (mem_cons_of_mem id member)

section Deposits

variable {env : Env} {sender token : Address} {s t : State}

/-- After the checks of the batch, the single deposits succeed exactly if the entries pass, and
leave the vaults as the batch does: what the batch takes at once covers every single transfer. -/
theorem depositEach_iff (running : s.config.paused = false)
    (auth : sender ≠ env.self ∧ sender ∈ env.signers) (validated : List ValidatedDeposit) :
    ∀ u, Pending s u (validated.map (·.vaultId)) → (validated.map (·.vaultId)).Nodup →
    (∀ entry ∈ validated, DepositChecked env s entry) →
    (∀ entry ∈ validated, entry.vault.tokenAddress = token ∧
      InI128 (entry.vault.balance + entry.amount)) →
    (validated ≠ [] → (validated.map (·.amount)).sum ≤ u.ledger token sender) →
    ∀ {Q : State → Prop}, (∀ u', u'.vaults = writeBack validated u.vaults → Q u') →
    ((depositEach env sender (validated.map (·.request))).succeeds u (fun _ => Q) ↔
      ∀ entry ∈ validated, DepositPasses env s sender entry.amount entry.vault) := by
  unfold depositEach
  induction validated with
  | nil =>
    intro u _ _ _ _ _ Q agrees
    rw [map_nil, succeeds_forM_nil]
    exact iff_of_true (agrees u rfl) (forall_mem_nil _)
  | cons entry rest ih =>
    intro u pending distinct checked fits enough Q agrees
    rw [map_cons] at pending distinct
    obtain ⟨fresh, distinctRest⟩ := nodup_cons.mp distinct
    obtain ⟨checkedHere, checkedRest⟩ := forall_mem_cons.mp checked
    obtain ⟨⟨sameToken, inRange⟩, fitsRest⟩ := forall_mem_cons.mp fits
    have enough := enough (cons_ne_nil entry rest)
    rw [map_cons, sum_cons] at enough
    have restNonneg : 0 ≤ (rest.map (·.amount)).sum := by
      refine List.sum_nonneg fun amount member => ?_
      obtain ⟨other, below, rfl⟩ := mem_map.mp member
      exact le_of_lt (checkedRest other below).pos
    have pos := checkedHere.pos
    have found : u.vaults entry.vaultId = some entry.vault :=
      (pending.untouched entry.vaultId mem_cons_self).trans checkedHere.stored
    have covered : entry.amount ≤ u.ledger entry.vault.tokenAddress sender := by
      rw [sameToken]
      omega
    obtain ⟨after, moved⟩ := Ledger.exists_transfer _ _ env.self (le_of_lt pos) covered
    rw [map_cons, succeeds_forM_cons, forall_mem_cons,
      ← pending.passes_iff env sender entry.amount entry.vault]
    refine (succeeds_deposit (pending.config ▸ running) auth ⟨pos, found, checkedHere.locked,
      checkedHere.deadline, checkedHere.notExpired⟩ inRange moved).trans (and_congr_right fun _ => ?_)
    refine ih _ (pending.step fresh entry.credited after) distinctRest checkedRest fitsRest
      (fun _ => ?_) agrees
    rw [sameToken] at moved
    show _ ≤ after token sender
    rw [Ledger.transfer_sender moved (Ne.symm auth.1)]
    omega

theorem batchDeposit_refines {deposits : List (VaultId × Int)}
    (distinct : (deposits.map Prod.fst).Nodup)
    (ran : batchDeposit env sender deposits s = .ok ((), t)) :
    (depositEach env sender deposits).succeeds s (fun _ u => ∀ id, u.balance id = t.balance id) ↔
      DepositsPass env s sender deposits := by
  obtain ⟨token, validated, rfl, batch⟩ := batchDeposit_spec env sender deposits s _ _ ran
  rw [map_fst_request] at distinct
  refine (depositEach_iff batch.running batch.auth validated s ⟨rfl, rfl, fun _ _ => rfl⟩ distinct
    batch.checked batch.written batch.affordable ?_).trans ?_
  · intro u vaults id
    unfold State.balance
    rw [vaults, batch.vaults]
  · rw [DepositsPass, forall_mem_map]
    refine forall₂_congr fun entry member => ?_
    have stored := (batch.checked entry member).stored
    exact ⟨fun passes vault found => Option.mem_unique stored found ▸ passes,
      fun passes => passes entry.vault stored⟩

end Deposits

/-- **A batch call with distinct identifiers that succeeds can be replaced by the single calls, with
the same balances, exactly if its entries pass the guards that it leaves out.** -/
theorem batch_refines_iff (env : Env) (s : State) :
    (∀ vaultIds amounts caller t, vaultIds.Nodup →
      batchWithdraw env vaultIds amounts caller s = .ok ((), t) →
      ((withdrawEach env caller (vaultIds.zip amounts)).succeeds s
          (fun _ u => ∀ id, u.balance id = t.balance id) ↔
        WithdrawalsPass env s (vaultIds.zip amounts))) ∧
    (∀ sender deposits t, (deposits.map Prod.fst).Nodup →
      batchDeposit env sender deposits s = .ok ((), t) →
      ((depositEach env sender deposits).succeeds s
          (fun _ u => ∀ id, u.balance id = t.balance id) ↔
        DepositsPass env s sender deposits)) :=
  ⟨fun _ _ _ _ distinct ran => batchWithdraw_refines distinct ran,
    fun _ _ _ distinct ran => batchDeposit_refines distinct ran⟩

theorem batch_refines_iff_twoVaults :
    (let env := plainEnv 1001 [⟨3⟩]
     (withdrawEach env ⟨3⟩ [(1, 40), (2, 50)]).succeeds twoVaults (fun _ u => ∀ id,
        u.balance id = ((batchWithdraw env [1, 2] [40, 50] ⟨3⟩).after twoVaults).balance id) ∧
      (depositEach env ⟨3⟩ [(1, 40), (2, 50)]).succeeds twoVaults (fun _ u => ∀ id,
        u.balance id = ((batchDeposit env ⟨3⟩ [(1, 40), (2, 50)]).after twoVaults).balance id)) := by
  obtain ⟨withdrawals, deposits⟩ := batch_refines_iff (plainEnv 1001 [⟨3⟩]) twoVaults
  refine ⟨(withdrawals [1, 2] [40, 50] ⟨3⟩ _ (by decide)
    (Tx.eq_ok_after (by decide +kernel))).mpr ?_, (deposits ⟨3⟩ [(1, 40), (2, 50)] _ (by decide)
    (Tx.eq_ok_after (by decide +kernel))).mpr ?_⟩
  · intro entry member vault found
    rw [twoVaults_vault found]
    refine ⟨rfl, ?_, ?_, rfl, rfl, rfl, by decide, ?_⟩
    · simp [newVault]
    · simp [twoVaults, fundedState, initialState]
    · show 0 + 1 ≤ maxU64
      decide
  · intro entry member vault found
    rw [twoVaults_vault found]
    exact ⟨rfl, rfl, rfl, rfl, rfl, by simp [newVault]⟩

def pausedScenario : List Invocation :=
  [⟨plainEnv 1000 [⟨3⟩], .createVault ⟨3⟩ ⟨4⟩ 86400 none⟩,
   ⟨plainEnv 1001 [⟨3⟩], .deposit 1 ⟨3⟩ 100⟩,
   ⟨plainEnv 1002 [⟨3⟩], .pauseVault 1 ⟨3⟩⟩]

/-- A paused vault takes batch withdrawals and batch deposits. -/
theorem batch_avoids_pause :
    (let env := plainEnv 1003 [⟨3⟩]
     let s := (replay fundedState pausedScenario).2
     (batchWithdraw env [1] [40] ⟨3⟩ s).isOk = true ∧
      ¬ (withdrawEach env ⟨3⟩ [(1, 40)]).succeeds s (fun _ _ => True) ∧
      (batchDeposit env ⟨3⟩ [(1, 40)] s).isOk = true ∧
      ¬ (depositEach env ⟨3⟩ [(1, 40)]).succeeds s (fun _ _ => True)) := by
  refine ⟨by decide +kernel, fun withdrawn => ?_, by decide +kernel, fun deposited => ?_⟩
  · have ok := withdrawn.isOk
    revert ok
    decide +kernel
  · have ok := deposited.isOk
    revert ok
    decide +kernel

end EthosContracts.TtlVault
