/-
**How a release is split among several beneficiaries.**
-/

import EthosContracts.TtlVault.Solvency

namespace EthosContracts.TtlVault

open Lib List

/-! ### The shares of a release -/

/-- **How a release is shared out** among those who qualify. -/
structure SharedOut (id : VaultId) (vault : Vault) (amount : Int) (mode : ReleaseTrigger)
    (s : State) (shares : List (BeneficiaryEntry × Int)) : Prop where
  payees : shares.map Prod.fst = vault.beneficiaries.filter (qualifies s id amount mode)
  nonneg : ∀ share ∈ shares, 0 ≤ share.2
  whole : (shares.map Prod.snd).sum = amount
  rounded : ∀ share ∈ shares.dropLast, share.2 = amount * share.1.bps /
    (((vault.beneficiaries.filter (qualifies s id amount mode)).map (·.bps)).sum : Nat)
  minimum : ∀ share ∈ shares, 0 < share.2 → share.1.minimumThreshold ≤ share.2

section Shares

variable {id : VaultId} {vault : Vault} {amount : Int} {mode : ReleaseTrigger} {s : State}

theorem minimum_le_share {entry : BeneficiaryEntry} {total : Nat} (nonneg : 0 ≤ amount)
    (pos : 0 < total) (bounded : total ≤ 10000)
    (qualified : qualifies s id amount mode entry = true)
    (wanted : 0 < entry.minimumThreshold) :
    entry.minimumThreshold ≤ floorShare amount total entry.bps := by
  simp only [qualifies, Bool.and_eq_true, Bool.not_eq_true', decide_eq_false_iff_not, not_and,
    not_lt] at qualified
  have compared := qualified.2 wanted
  rw [tdiv_eq_floorShare nonneg] at compared
  have more : floorShare amount 10000 entry.bps ≤ floorShare amount total entry.bps :=
    floorShare_le nonneg (by omega) (by omega) entry.bps
  exact compared.trans more

theorem releaseShares_sharedOut (nonneg : 0 ≤ amount)
    (bounded : (vault.beneficiaries.map (·.bps)).sum ≤ 10000)
    (pos : 0 < ((releasePayees id vault amount mode s).map (·.bps)).sum) :
    SharedOut id vault amount mode s
      (releaseShares amount (releasePayees id vault amount mode s)) := by
  have total := (totalBps_releasePayees id amount mode s bounded).2
  have someone : releasePayees id vault amount mode s ≠ [] := by
    intro nobody
    rw [nobody] at pos
    exact absurd pos (by decide)
  have qualified : ∀ entry ∈ releasePayees id vault amount mode s,
      qualifies s id amount mode entry = true := fun entry member =>
    (mem_filter.mp member).2
  refine ⟨apportion_items _ _, releaseShares_nonneg nonneg _, apportion_sum someone amount, ?_, ?_⟩
  · intro share member
    rw [releaseShares, ← dropLast_append_getLast someone, apportion_concat,
      dropLast_concat, dropLast_append_getLast someone] at member
    obtain ⟨entry, -, rfl⟩ := mem_map.mp member
    rfl
  · intro share member paid
    by_cases wanted : 0 < share.1.minimumThreshold
    · have listed : share.1 ∈ releasePayees id vault amount mode s := by
        have kept := mem_map_of_mem (f := Prod.fst) member
        rwa [releaseShares, apportion_items] at kept
      exact (minimum_le_share nonneg pos total (qualified _ listed) wanted).trans
        (apportion_floor_le (by omega) _ amount le_rfl share member)
    · omega

/-! ### The arithmetic of a release -/

theorem scaled_fits (nonneg : 0 ≤ amount) (fits : amount * 10000 ≤ maxI128)
    {entries : List BeneficiaryEntry} (bounded : (entries.map (·.bps)).sum ≤ 10000) :
    ∀ entry ∈ entries, InI128 (amount * entry.bps) := by
  intro entry member
  have part : entry.bps ≤ 10000 :=
    (single_le_sum (fun _ _ => Nat.zero_le _) _ (mem_map_of_mem member)).trans bounded
  have below : amount * (entry.bps : Int) ≤ amount * 10000 :=
    Int.mul_le_mul_of_nonneg_left (by omega) nonneg
  have whole : InI128 (amount * 10000) := ⟨by unfold maxI128; omega, fits⟩
  exact inI128_of_le (Int.mul_nonneg nonneg (Int.natCast_nonneg _)) below whole

theorem distributeReleaseAmount_eq (env : Env)
    (scaled : ∀ entry ∈ vault.beneficiaries, InI128 (amount * entry.bps)) :
    distributeReleaseAmount env id vault amount mode s =
      (if releasePayees id vault amount mode s = [] then
        payOut env id vault.tokenAddress vault.owner amount
      else paySplit env id vault.tokenAddress amount
        (totalBps (releasePayees id vault amount mode s))
        (releasePayees id vault amount mode s) 0) s := by
  have payees := qualifying_eq s id amount mode vault.beneficiaries scaled
  unfold distributeReleaseAmount
  rw [bind_of_ok (a := s) (t := s) rfl, payees, pure_bind]
  simp only [List.isEmpty_iff]
  rfl

theorem distributeReleaseAmount_eq_shares (env : Env) (nonneg : 0 ≤ amount) (fits : InI128 amount)
    (bounded : (vault.beneficiaries.map (·.bps)).sum ≤ 10000)
    (scaled : ∀ entry ∈ vault.beneficiaries, InI128 (amount * entry.bps))
    (someone : releasePayees id vault amount mode s ≠ [])
    (pos : 1 < (releasePayees id vault amount mode s).length →
      0 < ((releasePayees id vault amount mode s).map (·.bps)).sum) :
    distributeReleaseAmount env id vault amount mode s =
      payShares env id vault.tokenAddress
        (releaseShares amount (releasePayees id vault amount mode s)) s := by
  have total := (totalBps_releasePayees id amount mode s bounded).1
  have kept : ∀ entry ∈ releasePayees id vault amount mode s,
      InI128 (amount * entry.bps) := fun entry member => scaled entry (mem_of_mem_filter member)
  rw [distributeReleaseAmount_eq env scaled, if_neg someone, total, paySplit_eq env id _ nonneg
    fits _ 0 le_rfl nonneg (fun several => by exact_mod_cast pos several) kept
    (by rw [Int.sub_zero]), Int.sub_zero]
  rfl

end Shares

/-- **A release is shared out exactly** among the beneficiaries who qualify, if one of them has
points of their own; and it is paid if the products fit, the payees are compliant and the contract
holds the amount. -/
theorem distributeReleaseAmount_exact (env : Env) (id : VaultId) (vault : Vault) (amount : Int)
    (mode : ReleaseTrigger) (s : State) (nonneg : 0 ≤ amount)
    (bounded : (vault.beneficiaries.map (·.bps)).sum ≤ 10000)
    (someone : ∃ entry ∈ vault.beneficiaries,
      qualifies s id amount mode entry = true ∧ 0 < entry.bps) :
    ∃ shares, SharedOut id vault amount mode s shares ∧
      ((distributeReleaseAmount env id vault amount mode).wp s fun _ t =>
        PaidShares env id vault.tokenAddress shares s t) ∧
      (amount * 10000 ≤ maxI128 → amount ≤ s.ledger vault.tokenAddress env.self →
        (∀ entry ∈ vault.beneficiaries, checkCompliance env s entry.address = true) →
        (distributeReleaseAmount env id vault amount mode).succeeds s fun _ t =>
          PaidShares env id vault.tokenAddress shares s t) := by
  obtain ⟨entry, listed, qualified, points⟩ := someone
  have member : entry ∈ releasePayees id vault amount mode s :=
    mem_filter.mpr ⟨listed, qualified⟩
  have pos : 0 < ((releasePayees id vault amount mode s).map (·.bps)).sum :=
    points.trans_le (single_le_sum (fun _ _ => Nat.zero_le _) _ (mem_map_of_mem member))
  have nonempty : releasePayees id vault amount mode s ≠ [] := ne_nil_of_mem member
  have paid : (distributeReleaseAmount env id vault amount mode).wp s fun _ t =>
      PaidShares env id vault.tokenAddress
        (releaseShares amount (releasePayees id vault amount mode s)) s t := by
    refine (distributeReleaseAmount_pays env id mode s nonneg bounded).mono ?_
    rintro _ t (⟨nobody, -⟩ | ⟨-, paid⟩)
    · exact absurd nobody nonempty
    · exact paid
  refine ⟨_, releaseShares_sharedOut nonneg bounded pos, paid, fun fits covered compliant => ?_⟩
  have whole := scaled_fits nonneg fits bounded
  have amountFits : InI128 amount := ⟨by unfold maxI128; omega, by omega⟩
  have ran : (distributeReleaseAmount env id vault amount mode).succeeds s fun _ _ => True := by
    unfold Tx.succeeds
    rw [distributeReleaseAmount_eq_shares env nonneg amountFits bounded whole nonempty fun _ =>
      pos]
    refine payShares_succeeds env id _ _ s (releaseShares_nonneg nonneg _) ?_ ?_
    · intro share kept _
      have payee := mem_map_of_mem (f := Prod.fst) kept
      rw [releaseShares, apportion_items] at payee
      exact compliant _ (mem_of_mem_filter payee)
    · rw [releaseShares, apportion_sum nonempty]
      exact covered
  exact (ran.of_wp paid).mono fun _ _ both => both.2

def replayed (calls : Scenario) : State :=
  (played calls).2

def replayedVault (calls : Scenario) : Option Vault := (replayed calls).vaults 1

def threeHeirs : Scenario :=
  [(1000, ⟨3⟩, .createVault ⟨3⟩ ⟨4⟩ 600 none), (1001, ⟨3⟩, .deposit 1 ⟨3⟩ 100),
    (1002, ⟨3⟩, .setBeneficiaries 1 ⟨3⟩ [⟨⟨4⟩, 5000, 0⟩, ⟨⟨5⟩, 3000, 0⟩, ⟨⟨6⟩, 2000, 0⟩])]

def removedHeir : Scenario :=
  threeHeirs ++ [(1003, ⟨3⟩, .removeBeneficiary 1 ⟨3⟩ ⟨6⟩)]

theorem threeHeirs_vault : (replayedVault threeHeirs).isSome = true := by decide +kernel

theorem removedHeir_vault : (replayedVault removedHeir).isSome = true := by decide +kernel

/-- 80 for five and three parts: 50 and 30. -/
theorem distributeReleaseAmount_exact_removedHeir :
    (∃ shares, SharedOut 1 ((replayedVault removedHeir).get removedHeir_vault) 80 .expiry
        (replayed removedHeir) shares ∧
      (distributeReleaseAmount (plainEnv 2000 []) 1
        ((replayedVault removedHeir).get removedHeir_vault) 80 .expiry).succeeds
          (replayed removedHeir) fun _ t =>
            PaidShares (plainEnv 2000 []) 1
              ((replayedVault removedHeir).get removedHeir_vault).tokenAddress shares
              (replayed removedHeir) t) ∧
      (distributeReleaseAmount (plainEnv 2000 []) 1
        ((replayedVault removedHeir).get removedHeir_vault) 80 .expiry).succeeds
          (replayed removedHeir) fun _ t =>
            t.payouts = [⟨1, ⟨1⟩, ⟨4⟩, 50⟩, ⟨1, ⟨1⟩, ⟨5⟩, 30⟩] := by
  obtain ⟨shares, shared, -, runs⟩ := distributeReleaseAmount_exact (plainEnv 2000 []) 1
    ((replayedVault removedHeir).get removedHeir_vault) 80 .expiry (replayed removedHeir)
    (by decide) (by decide +kernel) (by decide +kernel)
  refine ⟨⟨shares, shared, runs (by decide) (by decide +kernel) (by decide +kernel)⟩, ?_⟩
  decide +kernel

/-! ### Arithmetic failures -/

def Failure.arithmetic : Failure → Bool
  | .overflow => true
  | .divisionByZero => true
  | _ => false

section Arithmetic

variable (env : Env) (id : VaultId) {vault : Vault} {amount : Int} (mode : ReleaseTrigger)
  (s : State)

theorem paySplit_weightless {token : Address} {entries : List BeneficiaryEntry}
    (several : 1 < entries.length) (weightless : ∀ entry ∈ entries, entry.bps = 0) :
    paySplit env id token amount 0 entries 0 s = .error .divisionByZero := by
  obtain _ | ⟨first, _ | ⟨second, rest⟩⟩ := entries
  · cases several
  · exact absurd several (by simp)
  · have zero : amount * (first.bps : Int) = 0 := by
      rw [weightless first mem_cons_self]
      exact Int.mul_zero _
    unfold paySplit
    rw [zero, i128_eq (by decide), pure_bind]
    exact bind_of_error rfl

theorem sum_eq_zero_iff (entries : List BeneficiaryEntry) :
    (entries.map (·.bps)).sum = 0 ↔ ∀ entry ∈ entries, entry.bps = 0 := by
  rw [List.sum_eq_zero_iff]
  exact forall_mem_map

theorem distributeReleaseAmount_traps_iff (pos : 0 < amount) (fits : amount * 10000 ≤ maxI128)
    (bounded : (vault.beneficiaries.map (·.bps)).sum ≤ 10000) :
    (∃ failure, distributeReleaseAmount env id vault amount mode s = .error failure ∧
        failure.arithmetic = true) ↔
      1 < (releasePayees id vault amount mode s).length ∧
        ∀ entry ∈ releasePayees id vault amount mode s, entry.bps = 0 := by
  have scaled := scaled_fits pos.le fits bounded
  have amountFits : InI128 amount := ⟨by unfold maxI128; omega, by omega⟩
  rw [← sum_eq_zero_iff]
  constructor
  · rintro ⟨failure, failed, arithmetic⟩
    by_contra possible
    have notTransfer : Failure.transferFailed ≠ failure := by
      rintro rfl
      cases arithmetic
    have notFlagged : Failure.error .amlFlaggedAddress ≠ failure := by
      rintro rfl
      cases arithmetic
    by_cases nobody : releasePayees id vault amount mode s = []
    · rw [distributeReleaseAmount_eq env scaled, if_pos nobody] at failed
      exact payOut_avoids env id _ notTransfer _ _ s failed
    · rw [distributeReleaseAmount_eq_shares env pos.le amountFits bounded scaled nobody
        (by omega)] at failed
      exact payShares_avoids env id _ notTransfer notFlagged _ s failed
  · rintro ⟨several, weightless⟩
    have someone : releasePayees id vault amount mode s ≠ [] := by
      intro nobody
      rw [nobody] at several
      cases several
    refine ⟨.divisionByZero, ?_, rfl⟩
    rw [distributeReleaseAmount_eq env scaled, if_neg someone,
      (totalBps_releasePayees id amount mode s bounded).1, weightless]
    exact paySplit_weightless env id s several ((sum_eq_zero_iff _).mp weightless)

end Arithmetic

/-- **When a release never fails because of its split.** In every state that the listed calls reach,
for every amount that fits ten thousand times: exactly if it is not among several payees without
points. -/
theorem distributeReleaseAmount_arithmetic_iff {host : Host} {start s : State} {history : History}
    (run : ContractRun host start history s) (fresh : Fresh host start)
    (calls : ∀ event ∈ history, SolvencyCall event.input.call) {id : VaultId} {vault : Vault}
    (stored : s.vaults id = some vault) (env : Env) (mode : ReleaseTrigger) {amount : Int}
    (pos : 0 < amount) (fits : amount * 10000 ≤ maxI128) :
    (∀ failure, distributeReleaseAmount env id vault amount mode s = .error failure →
        failure.arithmetic = false) ↔
      ¬ (1 < (releasePayees id vault amount mode s).length ∧
        ∀ entry ∈ releasePayees id vault amount mode s, entry.bps = 0) := by
  have bounded := ((run_sound run fresh calls).vaults id vault stored).shares
  rw [← distributeReleaseAmount_traps_iff env id mode s pos fits bounded]
  simp only [not_exists, not_and, Bool.not_eq_true]

theorem fundedState_fresh : Fresh plainHost fundedState :=
  initialState_fresh plainHost _ _ _ fun _ => by decide

theorem plainInputs_listed {calls : Scenario}
    (listed : ∀ entry ∈ calls, SolvencyCall entry.2.2) :
    ∀ event ∈ (played calls).1, SolvencyCall event.input.call := by
  intro event member
  obtain ⟨entry, listedEntry, same⟩ := plainInputs_event member
  rw [same]
  exact listed entry listedEntry

theorem threeHeirs_listed : ∀ entry ∈ threeHeirs, SolvencyCall entry.2.2 := by
  simp only [threeHeirs, forall_mem_cons]
  exact ⟨.createVault .., .deposit .., .setBeneficiaries .., fun _ none =>
    absurd none not_mem_nil⟩

theorem removedHeir_listed : ∀ entry ∈ removedHeir, SolvencyCall entry.2.2 := by
  simp only [removedHeir, forall_mem_append, forall_mem_singleton]
  exact ⟨threeHeirs_listed, .removeBeneficiary ..⟩

/-- The split among the two that are left does not trap. -/
theorem distributeReleaseAmount_arithmetic_removedHeir :
    ∃ vault, replayedVault removedHeir = some vault ∧
      ∀ failure, distributeReleaseAmount (plainEnv 2000 []) 1 vault 80 .expiry
        (replayed removedHeir) = .error failure → failure.arithmetic = false := by
  refine ⟨(replayedVault removedHeir).get removedHeir_vault, (Option.some_get _).symm,
    (distributeReleaseAmount_arithmetic_iff (plainInputs_run removedHeir) fundedState_fresh
      (plainInputs_listed removedHeir_listed) (Option.some_get removedHeir_vault).symm
      (plainEnv 2000 []) .expiry (by decide) (by decide)).mpr ?_⟩
  decide +kernel

def sharelessHeirs : Scenario :=
  [(1000, ⟨3⟩, .createVault ⟨3⟩ ⟨4⟩ 600 none), (1001, ⟨3⟩, .deposit 1 ⟨3⟩ 100),
    (1002, ⟨3⟩, .setBeneficiaries 1 ⟨3⟩ [⟨⟨4⟩, 10000, 0⟩]), (1003, ⟨3⟩, .addBeneficiary 1 ⟨3⟩ ⟨5⟩ 0),
    (1004, ⟨3⟩, .addBeneficiary 1 ⟨3⟩ ⟨6⟩ 0), (1005, ⟨4⟩, .declineBeneficiaryRole 1 ⟨4⟩)]

theorem sharelessHeirs_listed : ∀ entry ∈ sharelessHeirs, SolvencyCall entry.2.2 := by
  simp only [sharelessHeirs, forall_mem_cons]
  exact ⟨.createVault .., .deposit .., .setBeneficiaries .., .addBeneficiary .., .addBeneficiary ..,
    .declineBeneficiaryRole .., fun _ none => absurd none not_mem_nil⟩

def failureOf {α : Type} : Except Failure α → Option Failure
  | .ok _ => none
  | .error failure => some failure

/-- **The split of 100 divides by zero**, and so the vault cannot be released. -/
theorem sharelessHeirs_trapped :
    PlainRun (played sharelessHeirs).1 (replayed sharelessHeirs) ∧
      (∀ event ∈ (played sharelessHeirs).1, SolvencyCall event.input.call) ∧
      (replayedVault sharelessHeirs).map (fun vault => (vault.balance,
        failureOf (distributeReleaseAmount (plainEnv 2000 []) 1 vault 100 .expiry
          (replayed sharelessHeirs)))) = some (100, some .divisionByZero) ∧
      failureOf (triggerRelease (plainEnv 2000 []) 1 (replayed sharelessHeirs)) =
        some .divisionByZero := by
  refine ⟨plainInputs_run _, plainInputs_listed sharelessHeirs_listed, ?_, ?_⟩
  · decide +kernel
  · decide +kernel

/-! ### Early payments -/

/-- Nothing keeps a listed beneficiary from qualifying: no trigger, no decline, no threshold. -/
structure UnfilteredHeirs (s : State) (id : VaultId) (vault : Vault) : Prop where
  triggers : ∀ entry ∈ vault.beneficiaries,
    triggersOf (s.beneficiaries.releaseTriggers id) entry.address = []
  declines : ∀ entry ∈ vault.beneficiaries,
    s.beneficiaries.beneficiaryStatusEntry id entry.address ≠ some .declined
  tiers : ∀ entry ∈ vault.beneficiaries, s.beneficiaries.tierThreshold id entry.address ≤ 0
  minimums : ∀ entry ∈ vault.beneficiaries, entry.minimumThreshold ≤ 0

/-- A split by ten thousand and one by the sum of the points come to the same. -/
def SameShares (amount : Int) (entries : List BeneficiaryEntry) : Prop :=
  (∀ entry ∈ entries, amount * entry.bps ≤ maxI128) ∧
    (1 < entries.length → 0 < (entries.map (·.bps)).sum) ∧
    ∀ entry ∈ entries.dropLast, (∀ last ∈ entries.getLast?, entry.address = last.address) ∨
      amount * entry.bps / 10000 = amount * entry.bps / ((entries.map (·.bps)).sum : Nat)

section Early

variable {id : VaultId} {vault : Vault} {amount : Int} {s t : State}

theorem UnfilteredHeirs.qualifies (unfiltered : UnfilteredHeirs s id vault) (amount : Int)
    (mode : ReleaseTrigger) : ∀ entry ∈ vault.beneficiaries,
      admitted s id amount mode entry = true ∧ qualifies s id amount mode entry = true := by
  intro entry member
  have tier := unfiltered.tiers entry member
  have minimum := unfiltered.minimums entry member
  have ready : admitted s id amount mode entry = true := by
    refine decide_eq_true ⟨.inl (unfiltered.triggers entry member),
      unfiltered.declines entry member, fun wanted => ?_⟩
    omega
  refine ⟨ready, ?_⟩
  rw [TtlVault.qualifies, ready, Bool.true_and, Bool.not_eq_true', decide_eq_false_iff_not]
  omega

theorem UnfilteredHeirs.releasePayees (unfiltered : UnfilteredHeirs s id vault) (amount : Int)
    (mode : ReleaseTrigger) : releasePayees id vault amount mode s = vault.beneficiaries :=
  filter_eq_self.mpr fun entry member => (unfiltered.qualifies amount mode entry member).2

variable {env : Env} {entries : List BeneficiaryEntry}

theorem partialRelease_pays (stored : s.vaults id = some vault)
    (listed : vault.beneficiaries ≠ [])
    (bounded : (vault.beneficiaries.map (·.bps)).sum ≤ 10000) :
    (partialRelease env id amount).wp s fun _ t =>
      0 < amount ∧ amount ≤ vault.balance ∧ ∃ u, PaidShares env id vault.tokenAddress
          (apportion (·.bps) amount 10000 vault.beneficiaries amount) s u ∧
        ∀ payee, t.paidTo id payee = u.paidTo id payee := by
  simp only [partialRelease, wp_rules]
  intro _ pos found foundStored _ _
  cases stored.symm.trans foundStored
  refine (isExpired_readonly env id).wp fun _ _ covered => ?_
  refine (payBeneficiaries_shares env id pos.le bounded listed s).mono fun _ u paid => ?_
  exact fun _ => ⟨pos, covered, u, paid, fun _ => rfl⟩

theorem distributeReleaseAmount_scaled (env : Env) (mode : ReleaseTrigger) :
    (distributeReleaseAmount env id vault amount mode).wp s fun _ _ =>
      ∀ entry ∈ vault.beneficiaries, admitted s id amount mode entry = true →
        InI128 (amount * entry.bps) := by
  simp only [distributeReleaseAmount, wp_bind, wp_read]
  refine (qualifying_spec s id amount mode vault.beneficiaries s).mono ?_
  rintro payees t ⟨-, -, scaled⟩
  exact Tx.wp.const scaled

theorem sameShares_concat {front : List BeneficiaryEntry} {last : BeneficiaryEntry} :
    SameShares amount (front ++ [last]) ↔
      (∀ entry ∈ front ++ [last], amount * entry.bps ≤ maxI128) ∧
      (front ≠ [] → 0 < ((front ++ [last]).map (·.bps)).sum) ∧
      ∀ entry ∈ front, entry.address = last.address ∨ floorShare amount 10000 entry.bps =
        floorShare amount (((front ++ [last]).map (·.bps)).sum : Nat) entry.bps := by
  have several : 1 < (front ++ [last]).length ↔ front ≠ [] := by
    rw [length_append, length_singleton, ← length_pos_iff]
    omega
  unfold SameShares
  rw [several, dropLast_concat, List.getLast?_concat]
  simp only [Option.mem_def, Option.some.injEq, forall_eq', floorShare]

theorem received_eq_of_sameShares (nonneg : 0 ≤ amount)
    (bounded : (entries.map (·.bps)).sum ≤ 10000) (same : SameShares amount entries)
    (payee : Address) :
    received BeneficiaryEntry.address (releaseShares amount entries) payee =
      received BeneficiaryEntry.address (apportion (·.bps) amount 10000 entries amount) payee := by
  rcases eq_nil_or_concat' entries with rfl | ⟨front, last, rfl⟩
  · rfl
  · obtain ⟨-, pos, rounded⟩ := sameShares_concat.mp same
    by_cases alone : front = []
    · rw [alone]
      rfl
    · refine ((received_eq_iff nonneg ?_ ?_ front last).mpr rounded payee).symm
      · exact_mod_cast pos alone
      · exact_mod_cast bounded

theorem payShares_succeeds_of_received {token : Address}
    {shares paid : List (BeneficiaryEntry × Int)} (nonneg : ∀ share ∈ shares, 0 ≤ share.2)
    (compliant : ∀ share ∈ paid, 0 < share.2 → checkCompliance env s share.1.address = true)
    (same : ∀ payee, received BeneficiaryEntry.address shares payee =
      received BeneficiaryEntry.address paid payee)
    (covered : (shares.map Prod.snd).sum ≤ s.ledger token env.self) :
    (payShares env id token shares).succeeds s fun _ _ => True := by
  refine payShares_succeeds env id token shares s nonneg (fun share member pos => ?_) covered
  -- whoever gets something here got something there, and was screened for it
  have some : 0 < received BeneficiaryEntry.address paid share.1.address := by
    rw [← same]
    exact received_pos BeneficiaryEntry.address nonneg member pos
  obtain ⟨other, listed, larger, address⟩ := exists_of_received_pos some
  rw [← address]
  exact compliant other listed larger

theorem partialRelease_alike (stored : s.vaults id = some vault)
    (listed : vault.beneficiaries ≠ []) (unfiltered : UnfilteredHeirs s id vault)
    (bounded : (vault.beneficiaries.map (·.bps)).sum ≤ 10000)
    (funded : vault.balance ≤ s.ledger vault.tokenAddress env.self) (fits : InI128 amount)
    (released : partialRelease env id amount s = .ok ((), t)) (mode : ReleaseTrigger) :
    ((distributeReleaseAmount env id vault amount mode).succeeds s fun _ u =>
        ∀ payee, u.paidTo id payee = t.paidTo id payee) ↔
      SameShares amount vault.beneficiaries := by
  obtain ⟨pos, within, early, paid, recorded⟩ :=
    partialRelease_pays stored listed bounded _ _ released
  have payees := unfiltered.releasePayees amount mode
  have earlyPaid := fun payee =>
    (recorded payee).trans (paid.paidTo (splitShares_nonneg pos.le bounded) payee)
  constructor
  · rintro ⟨⟨⟩, u, ran, same⟩
    have scaled : ∀ entry ∈ vault.beneficiaries, InI128 (amount * entry.bps) :=
      fun entry member => distributeReleaseAmount_scaled env mode _ _ ran entry member
        (unfiltered.qualifies amount mode entry member).1
    have several : 1 < vault.beneficiaries.length → 0 < (vault.beneficiaries.map (·.bps)).sum := by
      intro several
      by_contra weightless
      have zero : (vault.beneficiaries.map (·.bps)).sum = 0 := by omega
      rw [distributeReleaseAmount_eq env scaled, payees, if_neg listed] at ran
      have total : totalBps vault.beneficiaries = 0 := by
        unfold totalBps
        omega
      rw [total] at ran
      cases ran.symm.trans (paySplit_weightless env id s several ((sum_eq_zero_iff _).mp zero))
    rcases distributeReleaseAmount_pays env id mode s pos.le bounded _ _ ran with
      ⟨nobody, -⟩ | ⟨-, later⟩
    · exact absurd (payees.symm.trans nobody) listed
    · rw [payees] at later
      have equal : ∀ payee, received BeneficiaryEntry.address
          (apportion (·.bps) amount 10000 vault.beneficiaries amount) payee =
          received BeneficiaryEntry.address (releaseShares amount vault.beneficiaries) payee := by
        intro payee
        have total := same payee
        rw [earlyPaid, later.paidTo (releaseShares_nonneg pos.le _)] at total
        omega
      obtain ⟨front, last, whole⟩ := (eq_nil_or_concat' vault.beneficiaries).resolve_left listed
      rw [whole] at scaled several equal bounded ⊢
      have more : front ≠ [] → 0 < ((front ++ [last]).map (·.bps)).sum := by
        intro others
        have length := length_pos_iff.mpr others
        refine several ?_
        rw [length_append, length_singleton]
        omega
      refine sameShares_concat.mpr ⟨fun entry member => (scaled entry member).2, more, ?_⟩
      by_cases alone : front = []
      · rw [alone]
        exact fun _ none => absurd none not_mem_nil
      · have more := more alone
        exact (received_eq_iff pos.le (by exact_mod_cast more) (by exact_mod_cast bounded)
          front last).mp equal
  · intro same
    have equal := received_eq_of_sameShares pos.le bounded same
    have scaled : ∀ entry ∈ vault.beneficiaries, InI128 (amount * entry.bps) := by
      intro entry member
      have nonneg : 0 ≤ amount * (entry.bps : Int) :=
        Int.mul_nonneg pos.le (Int.natCast_nonneg _)
      exact ⟨by unfold maxI128; omega, same.1 entry member⟩
    have ran : (distributeReleaseAmount env id vault amount mode).succeeds s fun _ _ => True := by
      unfold Tx.succeeds
      rw [distributeReleaseAmount_eq_shares env pos.le fits bounded scaled (by rwa [payees])
        (by rw [payees]; exact same.2.1), payees]
      refine payShares_succeeds_of_received (releaseShares_nonneg pos.le _) paid.compliant equal ?_
      rw [releaseShares, apportion_sum listed]
      omega
    refine (ran.of_wp (distributeReleaseAmount_pays env id mode s pos.le bounded)).mono ?_
    rintro _ u ⟨-, ⟨nobody, -⟩ | ⟨-, later⟩⟩ payee
    · exact absurd (payees.symm.trans nobody) listed
    · rw [payees] at later
      rw [earlyPaid, later.paidTo (releaseShares_nonneg pos.le _), equal]

theorem sameShares_of_whole (whole : (entries.map (·.bps)).sum = 10000)
    (scaled : ∀ entry ∈ entries, amount * entry.bps ≤ maxI128) : SameShares amount entries := by
  refine ⟨scaled, fun _ => by omega, fun entry _ => .inr ?_⟩
  rw [whole]
  rfl

end Early

/-- **When `partial_release` and a release split alike.** In every state that the listed calls
reach, for beneficiaries whom nothing keeps from qualifying and every early payment: exactly if the
shares are the same. -/
theorem partialRelease_alike_iff {host : Host} {start s t : State} {history : History}
    (run : ContractRun host start history s) (fresh : Fresh host start)
    (calls : ∀ event ∈ history, SolvencyCall event.input.call) {id : VaultId} {vault : Vault}
    (stored : s.vaults id = some vault) (listed : vault.beneficiaries ≠ [])
    (unfiltered : UnfilteredHeirs s id vault) {env : Env} (sameHost : env.toHost = host)
    {amount : Int} (fits : InI128 amount)
    (released : partialRelease env id amount s = .ok ((), t)) (mode : ReleaseTrigger) :
    ((distributeReleaseAmount env id vault amount mode).succeeds s fun _ u =>
        ∀ payee, u.paidTo id payee = t.paidTo id payee) ↔
      SameShares amount vault.beneficiaries := by
  subst sameHost
  have sound := run_sound run fresh calls
  exact partialRelease_alike stored listed unfiltered (sound.vaults id vault stored).shares
    (sound.covers stored) fits released mode

/-- With three beneficiaries that share everything, 80 are split alike. -/
theorem partialRelease_alike_threeHeirs :
    (partialRelease (plainEnv 1100 [⟨3⟩]) 1 80).succeeds (replayed threeHeirs) fun _ t =>
      (distributeReleaseAmount (plainEnv 1100 [⟨3⟩]) 1
        ((replayedVault threeHeirs).get threeHeirs_vault) 80 .expiry).succeeds (replayed threeHeirs)
          fun _ u => ∀ payee, u.paidTo 1 payee = t.paidTo 1 payee := by
  refine ⟨(), _, rfl, ?_⟩
  refine (partialRelease_alike_iff (plainInputs_run threeHeirs) fundedState_fresh
    (plainInputs_listed threeHeirs_listed) (Option.some_get threeHeirs_vault).symm
    (by decide +kernel) ⟨by decide +kernel, by decide +kernel, by decide +kernel, by decide +kernel⟩
    rfl (by decide) rfl .expiry).mpr ?_
  exact sameShares_of_whole (by decide +kernel) (by decide +kernel)

/-- After the removal of one of them the owner's split of 80 gives 40 and 40, a release 50 and 30.
-/
theorem removedHeir_not_alike :
    PlainRun (played removedHeir).1 (replayed removedHeir) ∧
      (∀ event ∈ (played removedHeir).1, SolvencyCall event.input.call) ∧
      UnfilteredHeirs (replayed removedHeir) 1 ((replayedVault removedHeir).get removedHeir_vault) ∧
      ((partialRelease (plainEnv 1100 [⟨3⟩]) 1 80).succeeds (replayed removedHeir) fun _ t =>
        t.paidTo 1 ⟨4⟩ = 40 ∧ t.paidTo 1 ⟨5⟩ = 40) ∧
      ((distributeReleaseAmount (plainEnv 1100 [⟨3⟩]) 1
        ((replayedVault removedHeir).get removedHeir_vault) 80 .expiry).succeeds
          (replayed removedHeir) fun _ u => u.paidTo 1 ⟨4⟩ = 50 ∧ u.paidTo 1 ⟨5⟩ = 30) := by
  refine ⟨plainInputs_run _, plainInputs_listed removedHeir_listed, ⟨?_, ?_, ?_, ?_⟩, ?_, ?_⟩ <;>
    decide +kernel

end EthosContracts.TtlVault
