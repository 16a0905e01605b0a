/-
**What a burn percentage does to a release.**
-/

import EthosContracts.TtlVault.Split

namespace EthosContracts.TtlVault

open Lib List

/-! ### What is to be paid -/

/-- The beneficiaries of a vault: the listed ones, or else the primary one. -/
def Vault.heirs (vault : Vault) : List Address :=
  if vault.beneficiaries = [] then [vault.beneficiary] else vault.beneficiaries.map (·.address)

def burnShare (vault : Vault) : Int := vault.releaseAmount * vault.burnPercentage / 10000

def paidSince (s t : State) : List Payout := t.payouts.drop s.payouts.length

def sumTo (payouts : List Payout) (payees : Address → Bool) : Int :=
  ((payouts.filter fun payout => payees payout.payee).map (·.amount)).sum

theorem sumTo_split (payouts : List Payout) (payee : Address) :
    sumTo payouts (· = payee) + sumTo payouts (· ≠ payee) = (payouts.map (·.amount)).sum :=
  sum_filter_key Payout.payee Payout.amount payouts payee

/-- **The burn is accounted for**: the beneficiaries get all of a release but the burnt part, and
besides the payments to others the burnt part leaves the contract's holdings. -/
structure BurnAccounted (env : Env) (vault : Vault) (s t : State) : Prop where
  received : sumTo (paidSince s t) (· ∈ vault.heirs) = vault.releaseAmount - burnShare vault
  burnt : t.ledger vault.tokenAddress env.self = s.ledger vault.tokenAddress env.self -
    sumTo (paidSince s t) (· ≠ env.self) - burnShare vault

/-! ### Payments out of the holdings -/

/-- The payments between two states leave the contract's holdings, and nothing else does. -/
structure Outflow (env : Env) (token : Address) (new : List Payout) (s t : State) : Prop where
  payouts : t.payouts = s.payouts ++ new
  holdings : t.ledger token env.self = s.ledger token env.self - sumTo new (· ≠ env.self)

section Flow

variable {env : Env} {id : VaultId} {token : Address} {new : List Payout} {s t : State}

theorem Outflow.paidSince (flow : Outflow env token new s t) : paidSince s t = new := by
  rw [TtlVault.paidSince, flow.payouts, drop_left]

theorem Outflow.single (id : VaultId) {payee : Address} {amount : Int}
    {after : Ledger Address Address}
    (moved : s.ledger.transfer token env.self payee amount = some after) :
    Outflow env token [⟨id, token, payee, amount⟩] s { s with
      ledger := after, payouts := s.payouts ++ [⟨id, token, payee, amount⟩] } := by
  refine ⟨rfl, ?_⟩
  have left := Ledger.transfer_holdings moved env.self
  by_cases self : payee = env.self
  · simp only [self, if_true] at left
    simp only [sumTo, self, ne_eq, not_true_eq_false, decide_false, filter_cons,
      Bool.false_eq_true, if_false, filter_nil, map_nil, sum_nil]
    omega
  · simp only [Ne.symm self, if_true, if_false] at left
    simp only [sumTo, self, ne_eq, not_false_eq_true, decide_true, filter_cons, if_true,
      filter_nil, map_cons, map_nil, sum_cons, sum_nil]
    omega

theorem PaidShares.outflow {shares : List (BeneficiaryEntry × Int)}
    (paid : PaidShares env id token shares s t) (nonneg : ∀ share ∈ shares, 0 ≤ share.2) :
    Outflow env token (sharePayouts id token shares) s t := by
  refine ⟨?_, ?_⟩
  · rw [paid.frame]
  · have split := sumTo_split (sharePayouts id token shares) env.self
    have mine : sumTo (sharePayouts id token shares) (· = env.self) =
        received BeneficiaryEntry.address shares env.self := sharePayouts_received nonneg env.self
    rw [sharePayouts_sum nonneg] at split
    rw [paid.holdings env.self, if_pos rfl]
    omega

end Flow

/-! ### The payment of a release -/

section Release

variable {env : Env} {id : VaultId} {vault : Vault} {s t : State}

/-- The payments of a release: to the beneficiary, to the owner, or to those who qualify. -/
inductive ReleasePaid (id : VaultId) (vault : Vault) (mode : ReleaseTrigger) (s : State) :
    List Payout → Prop
  | beneficiary (alone : vault.beneficiaries = []) : ReleasePaid id vault mode s
      [⟨id, vault.tokenAddress, vault.beneficiary, vault.releaseAmount⟩]
  | owner (listed : vault.beneficiaries ≠ [])
      (nobody : releasePayees id vault (vault.releaseAmount - burnShare vault) mode s = []) :
      ReleasePaid id vault mode s
        [⟨id, vault.tokenAddress, vault.owner, vault.releaseAmount - burnShare vault⟩]
  | shares (listed : vault.beneficiaries ≠ [])
      (someone : releasePayees id vault (vault.releaseAmount - burnShare vault) mode s ≠ []) :
      ReleasePaid id vault mode s (sharePayouts id vault.tokenAddress
        (releaseShares (vault.releaseAmount - burnShare vault)
          (releasePayees id vault (vault.releaseAmount - burnShare vault) mode s)))

theorem net_eq (nonneg : 0 ≤ vault.releaseAmount) :
    vault.releaseAmount - (vault.releaseAmount * (vault.burnPercentage : Int)).tdiv 10000 =
      vault.releaseAmount - burnShare vault := by
  rw [tdiv_eq_floorShare nonneg]
  rfl

theorem releaseNow_flow (sound : vault.Sound) (nonneg : 0 ≤ vault.releaseAmount)
    (mode : ReleaseTrigger) :
    (releaseNow env id vault mode).wp s fun _ t => ∃ new,
      ReleasePaid id vault mode s new ∧ Outflow env vault.tokenAddress new s t := by
  have net := net_bounds nonneg sound.burn
  rw [net_eq nonneg] at net
  simp only [releaseNow, setVaultDuplicate, wp_rules, net_eq nonneg, List.isEmpty_iff]
  intro _ _
  refine ⟨fun alone _ after moved _ => ?_, fun listed => ?_⟩
  · have flow : Outflow env vault.tokenAddress _ s _ := Outflow.single id moved
    exact ⟨fun _ => ⟨_, .beneficiary alone, flow.payouts, flow.holdings⟩,
      fun _ => ⟨_, .beneficiary alone, flow.payouts, flow.holdings⟩⟩
  · refine (distributeReleaseAmount_pays env id mode s net.1 sound.shares).mono ?_
    rintro _ t (⟨nobody, after, moved, rfl⟩ | ⟨someone, paid⟩) _
    · have flow : Outflow env vault.tokenAddress _ s _ := Outflow.single id moved
      exact ⟨fun _ => ⟨_, .owner listed nobody, flow.payouts, flow.holdings⟩,
        fun _ => ⟨_, .owner listed nobody, flow.payouts, flow.holdings⟩⟩
    · have flow := paid.outflow (releaseShares_nonneg net.1 _)
      exact ⟨fun _ => ⟨_, .shares listed someone, flow.payouts, flow.holdings⟩,
        fun _ => ⟨_, .shares listed someone, flow.payouts, flow.holdings⟩⟩

theorem sumTo_heirs_shares {amount : Int} {payees : List BeneficiaryEntry} (nonneg : 0 ≤ amount)
    (someone : payees ≠ []) (listed : ∀ entry ∈ payees, entry ∈ vault.beneficiaries) :
    sumTo (sharePayouts id vault.tokenAddress (releaseShares amount payees)) (· ∈ vault.heirs) =
      amount := by
  have all : (sharePayouts id vault.tokenAddress (releaseShares amount payees)).filter
      (fun payout => payout.payee ∈ vault.heirs) =
      sharePayouts id vault.tokenAddress (releaseShares amount payees) := by
    refine filter_eq_self.mpr fun payout member => ?_
    obtain ⟨share, kept, rfl⟩ := mem_map.mp member
    have payee := mem_map_of_mem (f := Prod.fst) (mem_of_mem_filter kept)
    rw [releaseShares, apportion_items] at payee
    have among := listed _ payee
    have some : vault.beneficiaries ≠ [] := ne_nil_of_mem among
    rw [Vault.heirs, if_neg some, decide_eq_true_eq]
    exact mem_map_of_mem among
  rw [sumTo, all, sharePayouts_sum (releaseShares_nonneg nonneg _), releaseShares,
    apportion_sum someone]

theorem sumTo_single (payout : Payout) (payees : Address → Bool) :
    sumTo [payout] payees = if payees payout.payee then payout.amount else 0 := by
  unfold sumTo
  cases paid : payees payout.payee <;> simp [paid]

theorem ReleasePaid.accounted_iff {mode : ReleaseTrigger} {new : List Payout}
    (paid : ReleasePaid id vault mode s new) (pos : 0 < vault.releaseAmount)
    (flow : Outflow env vault.tokenAddress new s t) :
    BurnAccounted env vault s t ↔ burnShare vault = 0 ∧ (vault.beneficiaries = [] ∨
        releasePayees id vault vault.releaseAmount mode s ≠ [] ∨ vault.owner ∈ vault.heirs) := by
  have kept : BurnAccounted env vault s t ↔
      sumTo new (· ∈ vault.heirs) = vault.releaseAmount - burnShare vault ∧ burnShare vault = 0 := by
    constructor
    · rintro ⟨received, burnt⟩
      rw [flow.paidSince] at received burnt
      rw [flow.holdings] at burnt
      exact ⟨received, by omega⟩
    · rintro ⟨received, none⟩
      refine ⟨?_, ?_⟩
      · rw [flow.paidSince, received]
      · rw [flow.paidSince, flow.holdings]
        omega
  rw [kept, and_comm]
  refine and_congr_right fun none => ?_
  have net : vault.releaseAmount - burnShare vault = vault.releaseAmount := by omega
  cases paid with
  | beneficiary alone =>
    have mine : vault.beneficiary ∈ vault.heirs := by
      rw [Vault.heirs, if_pos alone]
      exact mem_singleton.mpr rfl
    simp [sumTo_single, mine, alone, net]
  | owner listed nobody =>
    rw [net] at nobody
    rw [sumTo_single, net]
    by_cases mine : vault.owner ∈ vault.heirs
    · simp [mine]
    · simp [mine, listed, nobody, pos.ne]
  | shares listed someone =>
    rw [net] at someone ⊢
    simp [sumTo_heirs_shares pos.le someone fun entry member => mem_of_mem_filter member, someone]

theorem triggerRelease_funded (stored : s.vaults id = some vault) :
    (triggerRelease env id).wp s fun _ _ => vault.balance ≠ 0 := by
  rw [triggerRelease, triggerReleaseInternal, wp_bind]
  refine assertNotPaused_readonly.wp fun _ => ?_
  rw [wp_bind, loadVault, wp_bind, wp_read, found, wp_expect]
  intro v same
  cases stored.symm.trans same
  rw [wp_bind, wp_read, wp_bind, require, wp_ensure]
  intro _
  rw [wp_bind, require, wp_ensure]
  exact fun funded => Tx.wp.const funded

end Release

/-- **When a burn is accounted for.** For every vault without vesting and every release of it on
expiry that is no refund: exactly if the burnt part is zero and the vault has one beneficiary only,
or somebody on its list qualifies, or is the owner. -/
theorem burnAccounted_iff {env : Env} {id : VaultId} {s t : State} {stored : Vault}
    (found : s.vaults id = some stored)
    (sound : (rotatedVault env id s stored).Sound) (nonneg : 0 ≤ stored.balance)
    (unvested : hasVesting s id (rotatedVault env id s stored) = false)
    (inTime : acceptanceMissed env (s.beneficiaries.conditionalAcceptance id) = false)
    (released : triggerRelease env id s = .ok ((), t)) :
    BurnAccounted env (rotatedVault env id s stored) s t ↔
      burnShare (rotatedVault env id s stored) = 0 ∧
        ((rotatedVault env id s stored).beneficiaries = [] ∨
          releasePayees id (rotatedVault env id s stored)
            (rotatedVault env id s stored).releaseAmount .expiry s ≠ [] ∨
          stored.owner ∈ (rotatedVault env id s stored).heirs) := by
  have funded := triggerRelease_funded found _ _ released
  have pos : 0 < (rotatedVault env id s stored).releaseAmount := by
    have balance : 0 < (rotatedVault env id s stored).balance := lt_of_le_of_ne nonneg funded.symm
    unfold Vault.releaseAmount
    split
    · rename_i limit limited
      have := sound.limit limit limited
      omega
    · exact balance
  have flow : (triggerRelease env id).wp s fun _ t => ∃ new,
      ReleasePaid id (rotatedVault env id s stored) .expiry s new ∧
        Outflow env stored.tokenAddress new s t := by
    refine triggerReleaseInternal_wp env id .expiry ?refund ?wait ?pay
    case refund => exact fun _ _ _ missed => absurd (inTime.symm.trans missed) Bool.false_ne_true
    case wait =>
      intro vault same _ _ vesting
      cases found.symm.trans same
      exact absurd (unvested.symm.trans vesting) Bool.false_ne_true
    case pay =>
      intro vault same _ _ _
      cases found.symm.trans same
      refine (releaseNow_flow sound pos.le .expiry).mono ?_
      rintro _ t ⟨new, paid, flow⟩
      refine ⟨new, ?_, flow.payouts, flow.holdings⟩
      cases paid with
      | beneficiary alone => exact .beneficiary alone
      | owner listed nobody => exact .owner listed nobody
      | shares listed someone => exact .shares listed someone
  obtain ⟨new, paid, flow⟩ := flow _ _ released
  exact paid.accounted_iff pos flow

def expiredVault (calls : Scenario) (present : (replayedVault calls).isSome = true) :
    Vault :=
  rotatedVault (plainEnv 2000 []) 1 (replayed calls) ((replayedVault calls).get present)

def expired (calls : Scenario) : State :=
  (triggerRelease (plainEnv 2000 []) 1).after (replayed calls)

/-- Without a burn percentage everything goes to the three beneficiaries. -/
theorem burnAccounted_threeHeirs :
    BurnAccounted (plainEnv 2000 []) (expiredVault threeHeirs threeHeirs_vault)
        (replayed threeHeirs) (expired threeHeirs) ∧
      sumTo (paidSince (replayed threeHeirs) (expired threeHeirs)) (fun _ => true) = 100 := by
  have sound : Sound plainHost.self (replayed threeHeirs).core :=
    run_sound (plainInputs_run threeHeirs) fundedState_fresh (plainInputs_listed threeHeirs_listed)
  have stored : (replayed threeHeirs).vaults 1 =
      some ((replayedVault threeHeirs).get threeHeirs_vault) := (Option.some_get _).symm
  refine ⟨(burnAccounted_iff stored (rotatedVault_sound (plainEnv 2000 []) sound stored)
    (by decide +kernel) (by decide +kernel) (by decide +kernel)
    (Tx.eq_ok_after (by decide +kernel))).mpr ⟨by decide +kernel, .inr (.inl ?_)⟩, by decide +kernel⟩
  decide +kernel

def burntAlone : Scenario :=
  [(1000, ⟨3⟩, .createVault ⟨3⟩ ⟨4⟩ 600 none), (1001, ⟨3⟩, .deposit 1 ⟨3⟩ 100),
    (1002, ⟨3⟩, .setBurnPercentage 1 1000)]

def burntAmongThree : Scenario :=
  threeHeirs ++ [(1003, ⟨3⟩, .setBurnPercentage 1 1000)]

theorem burntAlone_vault : (replayedVault burntAlone).isSome = true := by decide +kernel

theorem burntAmongThree_vault : (replayedVault burntAmongThree).isSome = true := by decide +kernel

/-- **The one beneficiary gets 100 and not 90.** Three get 90 together, and the other 10 stay with
the contract, out of everyone's reach. -/
theorem burn_not_accounted :
    (triggerRelease (plainEnv 2000 []) 1 (replayed burntAlone)).isOk = true ∧
      burnShare (expiredVault burntAlone burntAlone_vault) = 10 ∧
      sumTo (paidSince (replayed burntAlone) (expired burntAlone)) (· = ⟨4⟩) = 100 ∧
      ¬ BurnAccounted (plainEnv 2000 []) (expiredVault burntAlone burntAlone_vault)
        (replayed burntAlone) (expired burntAlone) ∧
      (triggerRelease (plainEnv 2000 []) 1 (replayed burntAmongThree)).isOk = true ∧
      sumTo (paidSince (replayed burntAmongThree) (expired burntAmongThree)) (fun _ => true) = 90 ∧
      (expired burntAmongThree).ledger ⟨1⟩ ⟨0⟩ = 10 ∧
      ((expired burntAmongThree).vaults 1).map (·.balance) = some 0 ∧
      ¬ BurnAccounted (plainEnv 2000 []) (expiredVault burntAmongThree burntAmongThree_vault)
        (replayed burntAmongThree) (expired burntAmongThree) := by
  refine ⟨?_, ?_, ?_, fun accounted => ?_, ?_, ?_, ?_, ?_, fun accounted => ?_⟩
  · decide +kernel
  · decide +kernel
  · decide +kernel
  · exact absurd accounted.received (by decide +kernel)
  · decide +kernel
  · decide +kernel
  · decide +kernel
  · decide +kernel
  · exact absurd accounted.burnt (by decide +kernel)

end EthosContracts.TtlVault
