/-
**What the batch calls do to the balances.**

Both calls check every entry of their list against the state before the call, so an identifier that
is listed twice passes the checks twice.
-/

import Mathlib.Algebra.BigOperators.Fin
import EthosContracts.TtlVault.Batch
import EthosContracts.TtlVault.Undo

namespace EthosContracts.TtlVault

open Lib List

variable {entries : List (VaultId × Int)} {id : VaultId}

/-! ### Listed amounts -/

theorem listed_append (first second : List (VaultId × Int)) (id : VaultId) :
    listed (first ++ second) id = listed first id + listed second id := by
  induction first with
  | nil => rw [nil_append, listed, Int.zero_add]
  | cons entry rest ih => rw [cons_append, listed, listed, ih, Int.add_assoc]

theorem listed_pos (pos : ∀ entry ∈ entries, 0 < entry.2)
    (member : id ∈ entries.map Prod.fst) :
    0 < listed entries id := by
  induction entries with
  | nil => simp at member
  | cons entry rest ih =>
    have here := pos entry mem_cons_self
    have others : ∀ other ∈ rest, 0 < other.2 :=
      (forall_mem_cons.mp pos).2
    have later := listed_nonneg others id
    rw [listed]
    rcases mem_cons.mp member with same | below
    · rw [if_pos same.symm]
      omega
    · have rest := ih others below
      split_ifs <;> omega

theorem sum_listed (ids : Finset VaultId) (known : ∀ entry ∈ entries, entry.1 ∈ ids) :
    ∑ id ∈ ids, listed entries id = (entries.map Prod.snd).sum := by
  induction entries with
  | nil => exact Finset.sum_const_zero
  | cons entry rest ih =>
    simp only [listed]
    rw [Finset.sum_add_distrib, Finset.sum_ite_eq, if_pos (known entry mem_cons_self),
      ih (forall_mem_cons.mp known).2, map_cons,
      sum_cons]

theorem exists_last {α : Type} (key : α → VaultId) {entries : List α}
    (member : id ∈ entries.map key) :
    ∃ earlier entry later, entries = earlier ++ entry :: later ∧ key entry = id ∧
      id ∉ later.map key := by
  induction entries with
  | nil => simp at member
  | cons head rest ih =>
    by_cases below : id ∈ rest.map key
    · obtain ⟨earlier, entry, later, rfl, same, last⟩ := ih below
      exact ⟨head :: earlier, entry, later, rfl, same, last⟩
    · rcases mem_cons.mp member with same | later
      · exact ⟨[], head, rest, rfl, same.symm, below⟩
      · exact absurd later below

/-! ### Withdrawals -/

/-- Every vault loses what is listed for it, which it has. -/
def WithdrawsListed (s t : State) (entries : List (VaultId × Int)) : Prop :=
  ∀ id vault, s.vaults id = some vault → listed entries id ≤ vault.balance ∧
    ∃ vault', t.vaults id = some vault' ∧
      vault'.balance = vault.balance - listed entries id ∧ 0 ≤ vault'.balance

/-- A repeated vault covers its later amounts after the earlier ones. -/
def RepeatsCovered (s : State) (entries : List (VaultId × Int)) : Prop :=
  ∀ earlier entry later vault, entries = earlier ++ entry :: later →
    entry.1 ∈ earlier.map Prod.fst → s.vaults entry.1 = some vault →
    entry.2 ≤ vault.balance - listed earlier entry.1

theorem batchWithdraw_spec (env : Env) (vaultIds : List VaultId) (amounts : List Int)
    (caller : Address) (s : State) :
    (batchWithdraw env vaultIds amounts caller).wp s fun _ t =>
      (∀ entry ∈ vaultIds.zip amounts, WithdrawalChecked s caller entry) ∧
      ∀ id, t.vaults id = (s.vaults id).map (·.debit (listed (vaultIds.zip amounts) id)) := by
  simp only [batchWithdraw, wp_rules]
  intro _ _ _
  refine (validateWithdrawals_spec env caller _ s).mono ?_
  rintro _ t ⟨rfl, checked⟩ token _
  refine (applyWithdrawals_spec env caller token _ t).mono ?_
  rintro _ u ⟨-, debited⟩
  exact ⟨checked, debited⟩

theorem listed_le_of_repeatsCovered {s : State} {caller : Address}
    (checked : ∀ entry ∈ entries, WithdrawalChecked s caller entry)
    (covered : RepeatsCovered s entries) {vault : Vault} (found : s.vaults id = some vault)
    (nonneg : 0 ≤ vault.balance) : listed entries id ≤ vault.balance := by
  by_cases member : id ∈ entries.map Prod.fst
  · obtain ⟨earlier, entry, later, split, rfl, last⟩ := exists_last Prod.fst member
    have total : listed entries entry.1 = listed earlier entry.1 + entry.2 := by
      rw [split, listed_append, listed, if_pos rfl, listed_of_notMem last, Int.add_zero]
    rw [total]
    by_cases repeated : entry.1 ∈ earlier.map Prod.fst
    · have enough := covered earlier entry later vault split repeated found
      omega
    · have known : entry ∈ entries := by
        rw [split]
        exact mem_append_cons_self
      obtain ⟨stored, same, -, -, enough⟩ := (checked entry known).vault
      cases same.symm.trans found
      rw [listed_of_notMem repeated, Int.zero_add]
      exact enough
  · rw [listed_of_notMem member]
    exact nonneg

/-- **`batch_withdraw` deducts what is listed without overdrawing exactly if the repeated entries
are covered.** -/
theorem batchWithdraw_exact_iff {env : Env} {vaultIds : List VaultId} {amounts : List Int}
    {caller : Address} {s t : State}
    (nonneg : ∀ id vault, s.vaults id = some vault → 0 ≤ vault.balance)
    (ran : batchWithdraw env vaultIds amounts caller s = .ok ((), t)) :
    WithdrawsListed s t (vaultIds.zip amounts) ↔ RepeatsCovered s (vaultIds.zip amounts) := by
  obtain ⟨checked, debited⟩ := batchWithdraw_spec env vaultIds amounts caller s _ _ ran
  constructor
  · intro exactly earlier entry later vault split _ found
    obtain ⟨enough, -⟩ := exactly entry.1 vault found
    have rest : 0 ≤ listed later entry.1 := by
      refine listed_nonneg (fun other member => (checked other ?_).pos) entry.1
      rw [split]
      exact mem_append_right _ (mem_cons_of_mem entry member)
    rw [split, listed_append, listed, if_pos rfl] at enough
    omega
  · intro covered id vault found
    have enough := listed_le_of_repeatsCovered checked covered found (nonneg id vault found)
    have after := debited id
    rw [found, Option.map_some] at after
    refine ⟨enough, _, after, rfl, ?_⟩
    show 0 ≤ vault.balance - _
    omega

def twoVaults : State :=
  { fundedState with
    vaults := fun id =>
      if id = 1 ∨ id = 2 then some { newVault ⟨3⟩ ⟨4⟩ ⟨1⟩ 86400 1000 with balance := 100 } else none
    vaultCount := 2
    ledger := fun _ holder => if holder = ⟨0⟩ then 200 else if holder = ⟨3⟩ then 800 else 0 }

theorem twoVaults_vault {vault : Vault} (found : twoVaults.vaults id = some vault) :
    vault = { newVault ⟨3⟩ ⟨4⟩ ⟨1⟩ 86400 1000 with balance := 100 } := by
  simp only [twoVaults] at found
  split_ifs at found
  · exact (Option.some.inj found).symm

/-- Two withdrawals of 40 from one vault are covered by its 100. -/
theorem batchWithdraw_exact_iff_twice :
    (let call := batchWithdraw (plainEnv 1001 [⟨3⟩]) [1, 1] [40, 40] ⟨3⟩
     call twoVaults = .ok ((), call.after twoVaults) ∧
      WithdrawsListed twoVaults (call.after twoVaults) [(1, 40), (1, 40)]) := by
  have ran := Tx.eq_ok_after
    (x := batchWithdraw (plainEnv 1001 [⟨3⟩]) [1, 1] [40, 40] ⟨3⟩) (s := twoVaults)
    (by decide +kernel)
  refine ⟨ran, (batchWithdraw_exact_iff ?_ ran).mpr ?_⟩
  · intro id vault found
    rw [twoVaults_vault found]
    decide
  · intro earlier entry later vault split repeated found
    rw [twoVaults_vault found]
    rcases earlier with _ | ⟨first, _ | ⟨second, rest⟩⟩
    · simp at repeated
    · simp only [zip_cons_cons, cons_append, List.cons.injEq] at split
      obtain ⟨rfl, rfl, -⟩ := split
      decide
    · simp at split

/-- Two withdrawals of 60 from one vault pass the checks; the second is paid from the other
vault's deposit. -/
theorem batchWithdraw_overdraws :
    (let call := batchWithdraw (plainEnv 1001 [⟨3⟩]) [1, 1] [60, 60] ⟨3⟩
     (∀ id vault, twoVaults.vaults id = some vault → 0 ≤ vault.balance) ∧
      call twoVaults = .ok ((), call.after twoVaults) ∧
      (call.after twoVaults).balance 1 = -20 ∧
      ¬ WithdrawsListed twoVaults (call.after twoVaults) [(1, 60), (1, 60)]) := by
  refine ⟨?_, Tx.eq_ok_after (by decide +kernel), by decide +kernel, fun exactly => ?_⟩
  · intro id vault found
    rw [twoVaults_vault found]
    decide
  · have enough := (exactly 1 _ rfl).1
    revert enough
    decide

/-! ### Deposits -/

/-- Every vault gains what is listed for it, and together they gain what the depositor pays. -/
structure DepositsListed (sender : Address) (s t : State) (deposits : List (VaultId × Int)) :
    Prop where
  rises : ∀ id vault, s.vaults id = some vault →
    ∃ vault', t.vaults id = some vault' ∧ vault'.balance = vault.balance + listed deposits id
  paid : ∀ token, s.config.tokenAddress = some token →
    ∑ id ∈ (deposits.map Prod.fst).toFinset, (t.balance id - s.balance id) =
      s.ledger token sender - t.ledger token sender

/-- The outcome of `batch_deposit`, with what its loops checked: all amounts are taken, and the
copies of the vaults are written back. -/
structure BatchDeposited (env : Env) (sender token : Address) (validated : List ValidatedDeposit)
    (s t : State) : Prop where
  running : s.config.paused = false
  auth : sender ≠ env.self ∧ sender ∈ env.signers
  default : s.config.tokenAddress = some token
  checked : ∀ entry ∈ validated, DepositChecked env s entry
  written : ∀ entry ∈ validated,
    entry.vault.tokenAddress = token ∧ InI128 (entry.vault.balance + entry.amount)
  vaults : t.vaults = writeBack validated s.vaults
  affordable : validated ≠ [] → (validated.map (·.amount)).sum ≤ s.ledger token sender
  taken : s.ledger token sender - t.ledger token sender = (validated.map (·.amount)).sum

theorem batchDeposit_spec (env : Env) (sender : Address) (deposits : List (VaultId × Int))
    (s : State) :
    (batchDeposit env sender deposits).wp s fun _ t => ∃ token validated,
      validated.map (·.request) = deposits ∧ BatchDeposited env sender token validated s t := by
  simp only [batchDeposit, wp_rules]
  intro running auth token default
  refine (validateDeposits_spec env deposits 0 s).mono ?_
  rintro ⟨validated, total⟩ t ⟨rfl, requests, checked, sum⟩
  dsimp only at requests checked sum
  have amounts : total = (validated.map (·.amount)).sum := by
    rw [sum, Int.zero_add, ← requests, map_map]
    rfl
  refine ⟨fun zero => ?_, fun _ after moved => ?_⟩
  · -- a total of zero is the empty list, since every amount is positive
    have empty : validated = [] := by
      by_contra nonempty
      have pos : 0 < (validated.map (·.amount)).sum := by
        refine sum_pos _ (fun amount member => ?_) (by simpa using nonempty)
        obtain ⟨entry, known, rfl⟩ := mem_map.mp member
        exact (checked entry known).pos
      omega
    subst empty
    exact ⟨token, [], requests, running, auth, default, checked, by simp, rfl, by simp, by simp⟩
  · refine (applyDeposits_spec token validated _).mono ?_
    rintro _ u ⟨rfl, written⟩
    refine ⟨token, validated, requests, running, auth, default, checked, written, rfl, fun _ => ?_,
      ?_⟩
    · rw [← amounts]
      exact (Ledger.transfer_eq_some.mp moved).1.2
    · show t.ledger token sender - after token sender = _
      rw [← amounts, Ledger.transfer_sender moved (Ne.symm auth.1)]
      omega

theorem writeBack_append (first second : List ValidatedDeposit) (vaults : VaultId → Option Vault) :
    writeBack (first ++ second) vaults = writeBack second (writeBack first vaults) := by
  induction first generalizing vaults with
  | nil => rfl
  | cons entry rest ih => exact ih _

theorem writeBack_last (earlier : List ValidatedDeposit) (entry : ValidatedDeposit)
    {later : List ValidatedDeposit} (last : entry.vaultId ∉ later.map (·.vaultId))
    (vaults : VaultId → Option Vault) :
    writeBack (earlier ++ entry :: later) vaults entry.vaultId = some entry.credited := by
  rw [writeBack_append, writeBack, writeBack_of_notMem last, Function.update_self]

theorem map_fst_request (validated : List ValidatedDeposit) :
    (validated.map (·.request)).map Prod.fst = validated.map (·.vaultId) := by
  rw [map_map]
  rfl

section WriteBack

variable {env : Env} {s : State} {validated : List ValidatedDeposit}

variable (checked : ∀ entry ∈ validated, DepositChecked env s entry)
include checked

theorem writeBack_balance {id : VaultId} {vault : Vault} (found : s.vaults id = some vault)
    (member : id ∈ validated.map (·.vaultId)) :
    ∃ earlier entry later vault', validated = earlier ++ entry :: later ∧ entry.vaultId = id ∧
      id ∉ later.map (·.vaultId) ∧ writeBack validated s.vaults id = some vault' ∧
      vault'.balance + listed (earlier.map (·.request)) id =
        vault.balance + listed (validated.map (·.request)) id := by
  obtain ⟨earlier, entry, later, rfl, rfl, last⟩ := exists_last ValidatedDeposit.vaultId member
  refine ⟨earlier, entry, later, _, rfl, rfl, last, writeBack_last earlier entry last _, ?_⟩
  have stored := (checked entry mem_append_cons_self).stored
  cases stored.symm.trans found
  have none : listed (later.map (·.request)) entry.vaultId = 0 := by
    refine listed_of_notMem ?_
    rw [map_fst_request]
    exact last
  rw [map_append, map_cons, listed_append, listed, none,
    if_pos (show entry.request.1 = entry.vaultId from rfl)]
  show entry.vault.balance + entry.amount + _ = entry.vault.balance + (_ + (entry.amount + 0))
  omega

theorem writeBack_exact_iff :
    (∀ id vault, s.vaults id = some vault → ∃ vault', writeBack validated s.vaults id = some vault' ∧
      vault'.balance = vault.balance + listed (validated.map (·.request)) id) ↔
    (validated.map (·.vaultId)).Nodup := by
  constructor
  · intro exactly
    rw [nodup_iff_count_le_one]
    intro id
    by_cases member : id ∈ validated.map (·.vaultId)
    · obtain ⟨known, listedEntry, rfl⟩ := mem_map.mp member
      have found := (checked known listedEntry).stored
      obtain ⟨earlier, entry, later, vault', split, same, last, written, balance⟩ :=
        writeBack_balance checked found member
      obtain ⟨_, stored, rise⟩ := exactly _ _ found
      cases written.symm.trans stored
      have first : known.vaultId ∉ earlier.map (·.vaultId) := by
        intro repeated
        have pos : 0 < listed (earlier.map (·.request)) known.vaultId := by
          refine listed_pos (fun request below => ?_) (by rw [map_fst_request]; exact repeated)
          obtain ⟨other, inside, rfl⟩ := mem_map.mp below
          exact (checked other (split ▸ mem_append_left _ inside)).pos
        omega
      rw [split, map_append, map_cons, count_append, count_cons,
        count_eq_zero_of_not_mem first, count_eq_zero_of_not_mem last]
      split_ifs <;> omega
    · rw [count_eq_zero_of_not_mem member]
      exact Nat.zero_le 1
  · intro distinct id vault found
    by_cases member : id ∈ validated.map (·.vaultId)
    · obtain ⟨earlier, entry, later, vault', split, same, -, written, balance⟩ :=
        writeBack_balance checked found member
      refine ⟨vault', written, ?_⟩
      have first : id ∉ earlier.map (·.vaultId) := by
        intro repeated
        rw [split, map_append, map_cons, nodup_append] at distinct
        exact distinct.2.2 id repeated id (by rw [same]; exact mem_cons_self) rfl
      rw [listed_of_notMem (by rw [map_fst_request]; exact first), add_zero] at balance
      exact balance
    · refine ⟨vault, (writeBack_of_notMem member s.vaults).trans found, ?_⟩
      rw [listed_of_notMem (by rw [map_fst_request]; exact member), add_zero]

end WriteBack

/-- **`batch_deposit` credits what it takes exactly if the identifiers are distinct.** -/
theorem batchDeposit_exact_iff {env : Env} {sender : Address} {deposits : List (VaultId × Int)}
    {s t : State} (ran : batchDeposit env sender deposits s = .ok ((), t)) :
    DepositsListed sender s t deposits ↔ (deposits.map Prod.fst).Nodup := by
  obtain ⟨token, validated, rfl, batch⟩ := batchDeposit_spec env sender deposits s _ _ ran
  have exactly := writeBack_exact_iff batch.checked
  rw [← batch.vaults] at exactly
  rw [map_fst_request, ← exactly]
  refine ⟨fun holds => holds.rises, fun rises => ⟨rises, fun asset default => ?_⟩⟩
  cases batch.default.symm.trans default
  have total : (validated.map (·.amount)).sum = ((validated.map (·.request)).map Prod.snd).sum := by
    rw [map_map]
    rfl
  rw [batch.taken, total, map_fst_request]
  have known : ∀ request ∈ validated.map (·.request),
      request.1 ∈ (validated.map (·.vaultId)).toFinset := by
    intro request member
    obtain ⟨entry, inside, rfl⟩ := mem_map.mp member
    exact mem_toFinset.mpr (mem_map_of_mem inside)
  rw [← sum_listed _ known]
  refine Finset.sum_congr rfl fun id member => ?_
  obtain ⟨entry, inside, rfl⟩ := mem_map.mp (mem_toFinset.mp member)
  have found := (batch.checked entry inside).stored
  obtain ⟨vault', after, rise⟩ := rises _ _ found
  simp only [State.balance, found, after, Option.elim_some, rise]
  omega

theorem batchDeposit_exact_iff_distinct :
    (let call := batchDeposit (plainEnv 1001 [⟨3⟩]) ⟨3⟩ [(1, 40), (2, 30)]
     call twoVaults = .ok ((), call.after twoVaults) ∧
      DepositsListed ⟨3⟩ twoVaults (call.after twoVaults) [(1, 40), (2, 30)]) := by
  have ran := Tx.eq_ok_after
    (x := batchDeposit (plainEnv 1001 [⟨3⟩]) ⟨3⟩ [(1, 40), (2, 30)]) (s := twoVaults)
    (by decide +kernel)
  exact ⟨ran, (batchDeposit_exact_iff ran).mpr (by decide)⟩

/-- Of two deposits of 40 and 30 into one vault, 70 is taken and 30 is credited. -/
theorem batchDeposit_loses :
    (let call := batchDeposit (plainEnv 1001 [⟨3⟩]) ⟨3⟩ [(1, 40), (1, 30)]
     call twoVaults = .ok ((), call.after twoVaults) ∧
      (call.after twoVaults).balance 1 = 130 ∧ (call.after twoVaults).ledger ⟨1⟩ ⟨3⟩ = 730 ∧
      ¬ DepositsListed ⟨3⟩ twoVaults (call.after twoVaults) [(1, 40), (1, 30)]) := by
  refine ⟨Tx.eq_ok_after (by decide +kernel), by decide +kernel, by decide +kernel, ?_⟩
  intro exactly
  have paid := exactly.paid ⟨1⟩ rfl
  revert paid
  decide +kernel

end EthosContracts.TtlVault
