/-
**What the payment loops do.**
-/

import Mathlib.Algebra.Order.BigOperators.Group.List
import Mathlib.Algebra.Order.Ring.Nat
import EthosContracts.Lib.Apportion
import EthosContracts.TtlVault.Release
import EthosContracts.TtlVault.Rules

namespace EthosContracts.TtlVault

open Lib List

/-! ### Payments out of one vault -/

/-- `t` is `s` after payments out of one vault, each to one of the payees; nothing but the ledger
and the record of the payments differs. -/
structure Disbursed (id : VaultId) (payees : Address → Prop) (s t : State) : Prop where
  frame : t = { s with ledger := t.ledger, payouts := t.payouts }
  paid : ∃ new, t.payouts = s.payouts ++ new ∧
    ∀ payout ∈ new, payout.vaultId = id ∧ payees payout.payee

namespace Disbursed

variable {id : VaultId} {payees others : Address → Prop} {s t u : State}

theorem refl : Disbursed id payees s s := ⟨rfl, [], (append_nil _).symm, by simp⟩

theorem trans (first : Disbursed id payees s t) (second : Disbursed id payees t u) :
    Disbursed id payees s u := by
  obtain ⟨firstNew, firstPaid, firstPayees⟩ := first.paid
  obtain ⟨secondNew, secondPaid, secondPayees⟩ := second.paid
  refine ⟨?_, firstNew ++ secondNew, ?_, ?_⟩
  · rw [second.frame, first.frame]
  · rw [secondPaid, firstPaid, append_assoc]
  · exact forall_mem_append.mpr ⟨firstPayees, secondPayees⟩

theorem mono (disbursed : Disbursed id payees s t) (more : ∀ a, payees a → others a) :
    Disbursed id others s t := by
  obtain ⟨new, paid, reasons⟩ := disbursed.paid
  exact ⟨disbursed.frame, new, paid, fun payout member =>
    ⟨(reasons payout member).1, more _ (reasons payout member).2⟩⟩

theorem single {token payee : Address} {amount : Int} {after : Ledger Address Address}
    (allowed : payees payee) :
    Disbursed id payees s
      { s with ledger := after, payouts := s.payouts ++ [⟨id, token, payee, amount⟩] } := by
  refine ⟨rfl, [⟨id, token, payee, amount⟩], rfl, ?_⟩
  intro payout member
  rw [mem_singleton.mp member]
  exact ⟨rfl, allowed⟩

end Disbursed

/-! ### What payments cost -/

/-- The holder has lost at most so much of the token, and nothing of the others. -/
def SpentAtMost (holder token : Address) (amount : Int) (before after : Ledger Address Address) :
    Prop :=
  ∀ other, before other holder - (if other = token then amount else 0) ≤ after other holder

namespace SpentAtMost

variable {holder token : Address} {amount more : Int} {before after : Ledger Address Address}

theorem mono (spent : SpentAtMost holder token amount before after) (le : amount ≤ more) :
    SpentAtMost holder token more before after := by
  intro other
  have bound := spent other
  split_ifs at bound ⊢ <;> omega

theorem single {receiver : Address}
    (moved : before.transfer token holder receiver amount = some after) :
    SpentAtMost holder token amount before after := by
  intro other
  by_cases same : other = token
  · subst same
    rw [if_pos rfl]
    exact Ledger.holdings_sub_le_transfer moved holder
  · rw [if_neg same, Ledger.transfer_frame moved same holder]
    omega

end SpentAtMost

section Shares

variable (env : Env) (id : VaultId) (token : Address)

/-- Shares paid one after the other, each to the address of its entry. -/
def payShares (shares : List (BeneficiaryEntry × Int)) : Contract Unit :=
  shares.forM fun share => payShare env id token share.1.address share.2

/-- What is recorded of them: the positive ones. -/
def sharePayouts (shares : List (BeneficiaryEntry × Int)) : List Payout :=
  (shares.filter (0 < ·.2)).map fun share => ⟨id, token, share.1.address, share.2⟩

/-- **What paying shares does**: the positive ones go to compliant payees, and everyone gets theirs
out of the contract's holdings. -/
structure PaidShares (shares : List (BeneficiaryEntry × Int)) (s t : State) : Prop where
  frame : t = { s with
    ledger := t.ledger, payouts := s.payouts ++ sharePayouts id token shares }
  compliant : ∀ share ∈ shares, 0 < share.2 → checkCompliance env s share.1.address = true
  holdings : ∀ holder, t.ledger token holder = s.ledger token holder +
    received BeneficiaryEntry.address shares holder -
      if holder = env.self then (shares.map Prod.snd).sum else 0
  others : ∀ other, other ≠ token → t.ledger other = s.ledger other

variable {env id token} {share : BeneficiaryEntry × Int}
  {shares rest : List (BeneficiaryEntry × Int)} {s t : State}

theorem PaidShares.nil : PaidShares env id token [] s s where
  frame := by simp [sharePayouts]
  compliant _ none := absurd none not_mem_nil
  holdings holder := by simp
  others _ _ := rfl

theorem PaidShares.skip (paid : PaidShares env id token rest s t) (zero : share.2 = 0) :
    PaidShares env id token (share :: rest) s t where
  frame := by simpa [sharePayouts, zero] using paid.frame
  compliant other member pos := by
    rcases mem_cons.mp member with rfl | later
    · omega
    · exact paid.compliant other later pos
  holdings holder := by simpa [zero] using paid.holdings holder
  others := paid.others

theorem PaidShares.pay {after : Ledger Address Address} (pos : 0 < share.2)
    (checked : checkCompliance env s share.1.address = true)
    (moved : s.ledger.transfer token env.self share.1.address share.2 = some after)
    (paid : PaidShares env id token rest { s with
      ledger := after, payouts := s.payouts ++ [⟨id, token, share.1.address, share.2⟩] } t) :
    PaidShares env id token (share :: rest) s t where
  frame := by
    rw [paid.frame]
    simp [sharePayouts, pos]
  compliant other member larger := by
    rcases mem_cons.mp member with rfl | later
    · exact checked
    · exact paid.compliant other later larger
  holdings holder := by
    have here := Ledger.transfer_holdings moved holder
    have later := paid.holdings holder
    simp only [received_cons, map_cons, sum_cons] at later ⊢
    rw [later, here]
    by_cases payee : share.1.address = holder
    · rw [if_pos payee, if_pos payee.symm]
      split_ifs <;> omega
    · rw [if_neg payee, if_neg (Ne.symm payee)]
      split_ifs <;> omega
  others other ne := by
    rw [paid.others other ne]
    exact funext fun holder => Ledger.transfer_frame moved ne holder

variable (env id token)

theorem payShares_paid (shares : List (BeneficiaryEntry × Int)) :
    ∀ s, (∀ share ∈ shares, 0 ≤ share.2) → (payShares env id token shares).wp s fun _ t =>
      PaidShares env id token shares s t := by
  induction shares with
  | nil => exact fun s _ => (wp_forM_nil _ s _).mpr .nil
  | cons share rest ih =>
    intro s nonneg
    have later := (forall_mem_cons.mp nonneg).2
    unfold payShares
    rw [wp_forM_cons]
    simp only [payShare, wp_rules]
    refine ⟨fun pos checked after moved => ?_, fun none => ?_⟩
    · exact (ih _ later).mono fun _ t paid => paid.pay pos checked moved
    · have zero : share.2 = 0 := by
        have nonneg := nonneg share mem_cons_self
        omega
      exact (ih s later).mono fun _ t paid => paid.skip zero

theorem payShares_succeeds (shares : List (BeneficiaryEntry × Int)) :
    ∀ s, (∀ share ∈ shares, 0 ≤ share.2) →
      (∀ share ∈ shares, 0 < share.2 → checkCompliance env s share.1.address = true) →
      (shares.map Prod.snd).sum ≤ s.ledger token env.self →
      (payShares env id token shares).succeeds s fun _ _ => True := by
  induction shares with
  | nil => exact fun s _ _ _ => (succeeds_forM_nil _ s _).mpr trivial
  | cons share rest ih =>
    intro s nonneg compliant covered
    have later := (forall_mem_cons.mp nonneg).2
    have screened := (forall_mem_cons.mp compliant).2
    have restNonneg : 0 ≤ (rest.map Prod.snd).sum := by
      refine List.sum_nonneg fun value member => ?_
      obtain ⟨other, kept, rfl⟩ := mem_map.mp member
      exact later other kept
    have here := nonneg share mem_cons_self
    rw [map_cons, sum_cons] at covered
    unfold payShares
    rw [succeeds_forM_cons]
    simp only [payShare, succeeds_ite, succeeds_rules]
    refine ⟨fun pos => ⟨compliant share mem_cons_self pos, ?_⟩, fun _ =>
      ih s later screened (by omega)⟩
    obtain ⟨after, moved⟩ : ∃ after, s.ledger.transfer token env.self share.1.address share.2 =
        some after := Ledger.exists_transfer token env.self _ here (by omega)
    have left := Ledger.holdings_sub_le_transfer moved env.self
    refine ⟨after, moved, ih _ later screened ?_⟩
    dsimp only
    omega

variable {failure : Failure} {amount value : Int}

theorem payOut_avoids (notTransfer : .transferFailed ≠ failure)
    (payee : Address) (amount : Int) : (payOut env id token payee amount).Avoids failure := by
  simp [Tx.Avoids, Tx.ne_error_iff, payOut, transfer, meets_bind, meets_read, meets_expect, meets_write,
    notTransfer]

theorem payShares_avoids (notTransfer : .transferFailed ≠ failure)
    (notFlagged : .error .amlFlaggedAddress ≠ failure) (shares : List (BeneficiaryEntry × Int)) :
    (payShares env id token shares).Avoids failure := by
  refine avoids_forM fun share _ => ?_
  simp [Tx.Avoids, Tx.ne_error_iff, payShare, requireAmlCompliant, require, payOut, transfer, meets_ite,
    meets_bind, meets_read, meets_ensure, meets_expect, meets_write, meets_pure, notTransfer,
    notFlagged]

/-! ### Splits -/

theorem paySplit_shares (denominator : Int) (nonneg : 0 ≤ amount)
    (entries : List BeneficiaryEntry) :
    ∀ (distributed : Int) (s : State) (Q : Unit → State → Prop), (payShares env id token
        (apportion (·.bps) amount denominator entries (amount - distributed))).wp s Q →
      (paySplit env id token amount denominator entries distributed).wp s Q := by
  induction entries with
  | nil => exact fun _ s Q holds => holds
  | cons entry rest ih =>
    intro distributed s Q holds
    unfold payShares at holds
    cases rest with
    | nil =>
      rw [apportion, wp_forM_cons] at holds
      simp only [paySplit, wp_rules]
      refine fun _ => holds.mono fun _ t paid _ => ?_
      exact (wp_forM_nil _ t Q).mp paid
    | cons next rest =>
      rw [apportion, wp_forM_cons] at holds
      simp only [paySplit, wp_rules, tdiv_eq_floorShare nonneg]
      intro _ _
      refine holds.mono fun _ t paid _ => ih _ t Q ?_
      rw [← Int.sub_sub]
      exact paid

theorem i128_eq (fits : InI128 value) : i128 value = pure value := by
  funext s
  simp only [i128, ensure, fits, if_true, bind, StateT.bind, Except.bind]

theorem i128Div_eq (a : Int) {b : Int} (nonzero : b ≠ 0) : i128Div a b = pure (a.tdiv b) := by
  funext s
  simp only [i128Div, ensure, if_pos nonzero, bind, StateT.bind, Except.bind]

theorem inI128_of_le {bound : Int} (nonneg : 0 ≤ value) (le : value ≤ bound)
    (fits : InI128 bound) : InI128 value := by
  unfold InI128 at fits ⊢
  omega

theorem paySplit_eq {denominator : Int} (nonneg : 0 ≤ amount) (fits : InI128 amount)
    (entries : List BeneficiaryEntry) :
    ∀ distributed : Int, 0 ≤ distributed → distributed ≤ amount →
      (1 < entries.length → 0 < denominator) →
      (∀ entry ∈ entries, InI128 (amount * entry.bps)) →
      amount * ((entries.map (·.bps)).sum : Nat) ≤ (amount - distributed) * denominator →
      paySplit env id token amount denominator entries distributed =
        payShares env id token
          (apportion (·.bps) amount denominator entries (amount - distributed)) := by
  induction entries with
  | nil => exact fun _ _ _ _ _ _ => rfl
  | cons entry rest ih =>
    intro distributed started below pos scaled room
    cases rest with
    | nil =>
      have left : InI128 (amount - distributed) := inI128_of_le (by omega) (by omega) fits
      have all : InI128 (distributed + (amount - distributed)) :=
        inI128_of_le (by omega) (by omega) fits
      simp only [paySplit, i128_eq left, i128_eq all, pure_bind]
      rfl
    | cons next rest =>
      have pos : 0 < denominator := pos (by simp)
      have shareNonneg := floorShare_nonneg nonneg pos entry.bps
      have paid := Int.ediv_mul_le (amount * (entry.bps : Int)) pos.ne'
      have later : amount * (((next :: rest).map (·.bps)).sum : Nat) ≤
          (amount - (distributed + floorShare amount denominator entry.bps)) * denominator := by
        rw [map_cons, sum_cons, Nat.cast_add, Int.mul_add] at room
        rw [← Int.sub_sub, Int.sub_mul]
        unfold floorShare
        omega
      have laterNonneg : 0 ≤ amount * (((next :: rest).map (·.bps)).sum : Nat) :=
        Int.mul_nonneg nonneg (Int.natCast_nonneg _)
      have laterBelow : distributed + floorShare amount denominator entry.bps ≤ amount := by
        have enough := Int.nonneg_of_mul_nonneg_left (laterNonneg.trans later) pos
        omega
      have sum : InI128 (distributed + floorShare amount denominator entry.bps) :=
        inI128_of_le (by omega) laterBelow fits
      have rest := ih _ (by omega) laterBelow (fun _ => pos) (forall_mem_cons.mp scaled).2 later
      simp only [paySplit, i128_eq (scaled entry mem_cons_self), i128Div_eq _ pos.ne',
        tdiv_eq_floorShare nonneg, i128_eq sum, pure_bind, rest]
      rw [apportion, ← Int.sub_sub]
      rfl

theorem splitShares_nonneg (nonneg : 0 ≤ amount) {entries : List BeneficiaryEntry}
    (shares : (entries.map (·.bps)).sum ≤ 10000) :
    ∀ share ∈ apportion (·.bps) amount 10000 entries amount, 0 ≤ share.2 :=
  apportion_nonneg nonneg (by omega) (Int.mul_le_mul_of_nonneg_left (by omega) nonneg)

theorem payShare_disbursed (payee : Address) (share : Int) (s : State) :
    (payShare env id token payee share).wp s fun _ t =>
      Disbursed id (· = payee) s t := by
  simp only [payShare, wp_rules]
  exact ⟨fun _ _ _ _ => Disbursed.single rfl, fun _ => Disbursed.refl⟩

theorem paySplit_disbursed (amount denominator : Int) (entries : List BeneficiaryEntry) :
    ∀ (distributed : Int) (s : State),
      (paySplit env id token amount denominator entries distributed).wp s fun _ t =>
        Disbursed id (fun a => ∃ entry ∈ entries, entry.address = a) s t := by
  induction entries with
  | nil =>
    intro distributed s
    simp only [paySplit, wp_pure]
    exact Disbursed.refl
  | cons entry rest ih =>
    intro distributed s
    have here : ∀ share, (payShare env id token entry.address share).wp s fun _ t =>
        Disbursed id (fun a => ∃ other ∈ entry :: rest, other.address = a) s t := by
      intro share
      refine (payShare_disbursed env id token entry.address share s).mono fun _ t paid => ?_
      exact paid.mono fun a same => ⟨entry, mem_cons_self, same.symm⟩
    cases rest with
    | nil =>
      simp only [paySplit, wp_rules]
      exact fun _ => (here _).mono fun _ t paid _ => paid
    | cons next rest =>
      simp only [paySplit, wp_rules]
      intro _ _
      refine (here _).mono fun _ t paid _ => ?_
      refine (ih _ t).mono fun _ u later => paid.trans (later.mono ?_)
      rintro a ⟨other, member, same⟩
      exact ⟨other, mem_cons_of_mem entry member, same⟩

theorem payBeneficiaries_disbursed (vault : Vault) (amount : Int) (s : State) :
    (payBeneficiaries env id vault amount).wp s fun _ t =>
      Disbursed id (fun a => a = vault.beneficiary ∨
        ∃ entry ∈ vault.beneficiaries, entry.address = a) s t := by
  simp only [payBeneficiaries, wp_rules]
  refine ⟨fun _ _ after _ => Disbursed.single (Or.inl rfl), fun _ => ?_⟩
  exact (paySplit_disbursed env id _ _ _ _ _ s).mono fun _ t paid => paid.mono fun _ => Or.inr

/-! ### What is paid out of a vault -/

/-- What has been paid out of a vault. -/
def State.paidFrom (s : State) (id : VaultId) : Int :=
  ((s.payouts.filter (·.vaultId = id)).map (·.amount)).sum

/-- What has been paid out of a vault to one address. -/
def State.paidTo (s : State) (id : VaultId) (payee : Address) : Int :=
  ((s.payouts.filter fun payout => payout.vaultId = id ∧ payout.payee = payee).map (·.amount)).sum

theorem paidFrom_payOut (payee : Address) (amount : Int) (s : State)
    (ledger : Ledger Address Address) :
    State.paidFrom { s with
      ledger := ledger
      payouts := s.payouts ++ [⟨id, token, payee, amount⟩] } id
      = s.paidFrom id + amount := by
  simp [State.paidFrom]

theorem paidTo_payOut (payee : Address) (amount : Int) (s : State)
    (ledger : Ledger Address Address) (other : Address) :
    State.paidTo { s with
      ledger := ledger
      payouts := s.payouts ++ [⟨id, token, payee, amount⟩] } id other
      = s.paidTo id other + if payee = other then amount else 0 := by
  by_cases same : payee = other <;> simp [State.paidTo, same]

variable {env id token} {shares : List (BeneficiaryEntry × Int)} {s t : State}

theorem sharePayouts_sum (nonneg : ∀ share ∈ shares, 0 ≤ share.2) :
    ((sharePayouts id token shares).map (·.amount)).sum = (shares.map Prod.snd).sum := by
  induction shares with
  | nil => rfl
  | cons share rest ih =>
    have here := nonneg share mem_cons_self
    have later := ih (forall_mem_cons.mp nonneg).2
    unfold sharePayouts at later ⊢
    by_cases pos : 0 < share.2
    · simp only [filter_cons, decide_eq_true pos, if_true, map_cons, sum_cons, later]
    · simp only [filter_cons, decide_eq_false pos, Bool.false_eq_true, if_false,
        map_cons, sum_cons, later]
      omega

theorem sharePayouts_received (nonneg : ∀ share ∈ shares, 0 ≤ share.2) (payee : Address) :
    (((sharePayouts id token shares).filter (·.payee = payee)).map (·.amount)).sum =
      received BeneficiaryEntry.address shares payee := by
  have only : (sharePayouts id token shares).filter (·.payee = payee) =
      sharePayouts id token (shares.filter (·.1.address = payee)) := by
    simp [sharePayouts, filter_map, filter_filter, Function.comp_def, Bool.and_comm]
  rw [only, sharePayouts_sum fun share member => nonneg share (mem_of_mem_filter member)]
  rfl

theorem sharePayouts_vault : ∀ payout ∈ sharePayouts id token shares, payout.vaultId = id := by
  intro payout member
  obtain ⟨share, -, rfl⟩ := mem_map.mp member
  rfl

section

variable (paid : PaidShares env id token shares s t) (nonneg : ∀ share ∈ shares, 0 ≤ share.2)
include paid nonneg

theorem PaidShares.paidFrom : t.paidFrom id = s.paidFrom id + (shares.map Prod.snd).sum := by
  have all : (sharePayouts id token shares).filter (·.vaultId = id) =
      sharePayouts id token shares :=
    filter_eq_self.mpr fun payout member => decide_eq_true (sharePayouts_vault payout member)
  rw [State.paidFrom, paid.frame, filter_append, map_append, sum_append, all,
    sharePayouts_sum nonneg]
  rfl

theorem PaidShares.paidTo (payee : Address) :
    t.paidTo id payee = s.paidTo id payee + received BeneficiaryEntry.address shares payee := by
  have only : (sharePayouts id token shares).filter
      (fun payout => payout.vaultId = id ∧ payout.payee = payee) =
      (sharePayouts id token shares).filter (·.payee = payee) := by
    refine filter_congr fun payout member => ?_
    simp [sharePayouts_vault payout member]
  rw [State.paidTo, paid.frame, filter_append, map_append, sum_append, only,
    sharePayouts_received nonneg]
  rfl

theorem PaidShares.spent :
    SpentAtMost env.self token (shares.map Prod.snd).sum s.ledger t.ledger := by
  intro other
  by_cases same : other = token
  · subst same
    have mine := received_nonneg BeneficiaryEntry.address nonneg env.self
    rw [paid.holdings env.self, if_pos rfl, if_pos rfl]
    omega
  · rw [paid.others other same, if_neg same]
    omega

end

variable (env id)

theorem payBeneficiaries_shares {vault : Vault} (nonneg : 0 ≤ amount)
    (shares : (vault.beneficiaries.map (·.bps)).sum ≤ 10000) (listed : vault.beneficiaries ≠ [])
    (s : State) :
    (payBeneficiaries env id vault amount).wp s fun _ t =>
      PaidShares env id vault.tokenAddress
        (apportion (·.bps) amount 10000 vault.beneficiaries amount) s t := by
  have some : ¬ vault.beneficiaries.isEmpty = true := by
    rw [List.isEmpty_iff]
    exact listed
  rw [payBeneficiaries, if_neg some]
  refine paySplit_shares env id _ 10000 nonneg _ 0 s _ ?_
  rw [Int.sub_zero]
  exact payShares_paid env id _ _ s (splitShares_nonneg nonneg shares)

def Vault.shareOf (vault : Vault) (amount : Int) (payee : Address) : Int :=
  if vault.beneficiaries = [] then if vault.beneficiary = payee then amount else 0
  else received BeneficiaryEntry.address
    (apportion (·.bps) amount 10000 vault.beneficiaries amount) payee

/-- **What a payment to the beneficiaries costs**, and what everyone gets of it. -/
structure PaidOut (vault : Vault) (amount : Int) (s t : State) : Prop where
  spent : SpentAtMost env.self vault.tokenAddress amount s.ledger t.ledger
  paidFrom : t.paidFrom id = s.paidFrom id + amount
  paidTo : ∀ payee, t.paidTo id payee = s.paidTo id payee + vault.shareOf amount payee

theorem payBeneficiaries_paid (vault : Vault) (amount : Int) (nonneg : 0 ≤ amount)
    (shares : (vault.beneficiaries.map (·.bps)).sum ≤ 10000) (s : State) :
    (payBeneficiaries env id vault amount).wp s fun _ t => PaidOut env id vault amount s t := by
  by_cases listed : vault.beneficiaries = []
  · simp only [payBeneficiaries, listed, isEmpty_nil, if_true, wp_rules]
    refine fun _ after moved => ⟨.single moved, paidFrom_payOut id _ _ _ s _, fun payee => ?_⟩
    rw [Vault.shareOf, if_pos listed]
    exact paidTo_payOut id _ _ _ s _ payee
  · refine (payBeneficiaries_shares env id nonneg shares listed s).mono fun _ t paid => ?_
    have pos := splitShares_nonneg nonneg shares
    have spent := paid.spent pos
    have out := paid.paidFrom pos
    rw [apportion_sum listed] at spent out
    refine ⟨spent, out, fun payee => ?_⟩
    rw [Vault.shareOf, if_neg listed]
    exact paid.paidTo pos payee

end Shares

/-! ### The distribution of a release -/

/-- A beneficiary is among the payees of a release. -/
def qualifies (s : State) (id : VaultId) (releaseAmount : Int) (mode : ReleaseTrigger)
    (entry : BeneficiaryEntry) : Bool :=
  admitted s id releaseAmount mode entry &&
    !decide (0 < entry.minimumThreshold ∧
      (releaseAmount * entry.bps).tdiv 10000 < entry.minimumThreshold)

theorem qualifying_spec (seen : State) (id : VaultId) (releaseAmount : Int)
    (mode : ReleaseTrigger) (entries : List BeneficiaryEntry) (s : State) :
    (qualifying seen id releaseAmount mode entries).wp s fun payees t =>
      t = s ∧ payees = entries.filter (qualifies seen id releaseAmount mode) ∧
        ∀ entry ∈ entries, admitted seen id releaseAmount mode entry = true →
          InI128 (releaseAmount * entry.bps) := by
  induction entries with
  | nil => simp [qualifying]
  | cons entry rest ih =>
    simp only [qualifying, wp_rules, forall_mem_cons]
    refine ⟨fun ready fits => ih.mono ?_, fun notReady => ih.mono ?_⟩
    · rintro payees t ⟨same, rfl, later⟩
      refine ⟨fun small => ⟨same, ?_, fun _ => fits, later⟩, fun enough =>
        ⟨same, ?_, fun _ => fits, later⟩⟩
      · simp [qualifies, ready, small]
      · simp only [qualifies, filter_cons, ready, decide_eq_false enough, Bool.not_false,
          Bool.and_true, if_true]
    · rintro payees t ⟨same, rfl, later⟩
      refine ⟨same, ?_, fun ready => absurd ready notReady, later⟩
      simp only [qualifies, filter_cons, Bool.eq_false_iff.mpr notReady, Bool.false_and,
        Bool.false_eq_true, if_false]

theorem qualifying_eq (seen : State) (id : VaultId) (releaseAmount : Int)
    (mode : ReleaseTrigger) (entries : List BeneficiaryEntry)
    (fits : ∀ entry ∈ entries, InI128 (releaseAmount * entry.bps)) :
    qualifying seen id releaseAmount mode entries =
      pure (entries.filter (qualifies seen id releaseAmount mode)) := by
  induction entries with
  | nil => rfl
  | cons entry rest ih =>
    have later := ih (forall_mem_cons.mp fits).2
    by_cases ready : admitted seen id releaseAmount mode entry = true
    · simp only [qualifying, ready, if_true, i128_eq (fits entry mem_cons_self), later,
        pure_bind, qualifies, filter_cons, Bool.true_and]
      by_cases small : 0 < entry.minimumThreshold ∧
          (releaseAmount * (entry.bps : Int)).tdiv 10000 < entry.minimumThreshold
      · simp only [small, decide_true, Bool.not_true, Bool.false_eq_true, if_false, and_self, if_true]
      · simp only [small, decide_false, Bool.not_false, if_true, if_false]
    · simp only [qualifying, ready, Bool.false_eq_true, if_false, later, qualifies,
        filter_cons, Bool.false_and]

section Distribution

variable (env : Env) (id : VaultId) (vault : Vault) (amount : Int) (mode : ReleaseTrigger)
  (s : State)

def releasePayees : List BeneficiaryEntry :=
  vault.beneficiaries.filter (qualifies s id amount mode)

theorem distributeReleaseAmount_disbursed :
    (distributeReleaseAmount env id vault amount mode).wp s fun _ t =>
      Disbursed id (fun a => a = vault.owner ∨
        ∃ entry ∈ vault.beneficiaries, entry.address = a) s t := by
  simp only [distributeReleaseAmount, wp_core]
  refine (qualifying_spec s id amount mode vault.beneficiaries s).mono ?_
  rintro payees t ⟨rfl, rfl, -⟩
  simp only [wp_rules]
  refine ⟨fun _ after _ => Disbursed.single (Or.inl rfl), fun _ => ?_⟩
  refine (paySplit_disbursed env id _ _ _ _ _ t).mono fun _ u paid => paid.mono ?_
  rintro a ⟨entry, member, same⟩
  exact Or.inr ⟨entry, mem_of_mem_filter member, same⟩

variable {vault}

theorem totalBps_releasePayees (shares : (vault.beneficiaries.map (·.bps)).sum ≤ 10000) :
    totalBps (releasePayees id vault amount mode s) =
      ((releasePayees id vault amount mode s).map (·.bps)).sum ∧
    ((releasePayees id vault amount mode s).map (·.bps)).sum ≤ 10000 := by
  have le := ((filter_sublist (l := vault.beneficiaries)
    (p := qualifies s id amount mode)).map (·.bps)).sum_le_sum fun _ _ => Nat.zero_le _
  unfold totalBps releasePayees
  omega

variable {amount}

def releaseShares (amount : Int) (payees : List BeneficiaryEntry) : List (BeneficiaryEntry × Int) :=
  apportion (·.bps) amount ((payees.map (·.bps)).sum : Nat) payees amount

variable (nonneg : 0 ≤ amount)
include nonneg

theorem releaseShares_nonneg (payees : List BeneficiaryEntry) :
    ∀ share ∈ releaseShares amount payees, 0 ≤ share.2 :=
  apportion_whole_nonneg nonneg payees

variable (shares : (vault.beneficiaries.map (·.bps)).sum ≤ 10000)
include shares

theorem distributeReleaseAmount_pays :
    (distributeReleaseAmount env id vault amount mode).wp s fun _ t =>
      (releasePayees id vault amount mode s = [] ∧
        ∃ after, s.ledger.transfer vault.tokenAddress env.self vault.owner amount = some after ∧
          t = { s with
            ledger := after
            payouts := s.payouts ++ [⟨id, vault.tokenAddress, vault.owner, amount⟩] }) ∨
      (releasePayees id vault amount mode s ≠ [] ∧ PaidShares env id vault.tokenAddress
          (releaseShares amount (releasePayees id vault amount mode s)) s t) := by
  simp only [distributeReleaseAmount, wp_rules]
  refine (qualifying_spec s id amount mode vault.beneficiaries s).mono ?_
  rintro payees t ⟨rfl, whole, -⟩
  obtain rfl : payees = releasePayees id vault amount mode t := whole
  simp only [List.isEmpty_iff]
  refine ⟨fun nobody after moved => .inl ⟨nobody, after, moved, rfl⟩, fun someone => ?_⟩
  rw [(totalBps_releasePayees id amount mode t shares).1]
  refine paySplit_shares env id _ _ nonneg _ 0 t _ ?_
  rw [Int.sub_zero]
  refine (payShares_paid env id _ _ t ?_).mono fun _ u paid => .inr ⟨someone, paid⟩
  exact releaseShares_nonneg nonneg _

theorem distributeReleaseAmount_spent :
    (distributeReleaseAmount env id vault amount mode).wp s fun _ t =>
      SpentAtMost env.self vault.tokenAddress amount s.ledger t.ledger := by
  refine (distributeReleaseAmount_pays env id mode s nonneg shares).mono ?_
  rintro _ t (⟨-, after, moved, rfl⟩ | ⟨someone, paid⟩)
  · exact SpentAtMost.single moved
  · have spent := paid.spent (releaseShares_nonneg nonneg _)
    rwa [releaseShares, apportion_sum someone] at spent

end Distribution

/-! ### The gates of a release -/

section Gates

variable (env : Env) (id : VaultId)

theorem anyConditionMet_readonly (mode : ReleaseTrigger) (conditions : List ReleaseCondition) :
    (anyConditionMet env id mode conditions).Readonly := by
  induction conditions with
  | nil =>
    intro s
    simp only [anyConditionMet, wp_pure]
  | cons condition rest ih =>
    have here : (conditionMet env id mode condition).Readonly := by
      cases condition with
      | ttlExpiry => exact isExpired_readonly env id
      | ownerInitiated => exact fun s => (wp_pure s _ _).mpr rfl
      | oracle address => exact fun s => (wp_pure s _ _).mpr rfl
    intro s
    simp only [anyConditionMet, wp_rules]
    exact here.wp fun _ => ih.wp fun _ => rfl

theorem assertGracePeriodOver_readonly (vault : Vault) :
    (assertGracePeriodOver env id vault).Readonly := by
  intro s
  simp [assertGracePeriodOver]

theorem assertNotVetoed_readonly : (assertNotVetoed env id).Readonly := by
  intro s
  simp only [assertNotVetoed, wp_rules]
  exact (isExpired_readonly env id).wp fun _ _ => rfl

theorem assertBeneficiaryAccepts_readonly (vault : Vault) (total : Int) :
    (assertBeneficiaryAccepts id vault total).Readonly := by
  intro s
  simp [assertBeneficiaryAccepts]

theorem assertReleaseVoted_readonly : (assertReleaseVoted env id).Readonly := by
  intro s
  simp only [assertReleaseVoted, wp_rules]
  split <;> simp

/-- The vault that a release works on: the stored one with the rotation applied. -/
def rotatedVault (s : State) (vault : Vault) : Vault :=
  { vault with
    beneficiaries := rotatedBeneficiaries env.now (s.beneficiaries.rotationSchedule id)
      vault.beneficiaries }

/-- The state with the release of a vault marked as attempted. -/
def State.attempted (s : State) : State :=
  { s with
    beneficiaries.releaseAttempted :=
      Function.update s.beneficiaries.releaseAttempted id true }

/-- **What is left of a release after its gates**: the refund of a missed acceptance, the wait for
vesting, or the payment; the last two on the vault with the rotation applied. -/
theorem triggerReleaseInternal_wp (mode : ReleaseTrigger) {s : State} {Q : Unit → State → Prop}
    (refund : ∀ vault, s.vaults id = some vault → vault.status = .locked →
      acceptanceMissed env (s.beneficiaries.conditionalAcceptance id) = true →
      (refundMissedAcceptance env id vault).wp s Q)
    (wait : ∀ vault, s.vaults id = some vault → vault.status = .locked →
      acceptanceMissed env (s.beneficiaries.conditionalAcceptance id) = false →
      hasVesting s id (rotatedVault env id s vault) = true →
      (saveVault id { rotatedVault env id s vault with status := .released }).wp (s.attempted id) Q)
    (pay : ∀ vault, s.vaults id = some vault → vault.status = .locked →
      acceptanceMissed env (s.beneficiaries.conditionalAcceptance id) = false →
      hasVesting s id (rotatedVault env id s vault) = false →
      (releaseNow env id (rotatedVault env id s vault) mode).wp (s.attempted id) Q) :
    (triggerReleaseInternal env id mode).wp s Q := by
  simp only [triggerReleaseInternal, wp_rules]
  intro _ vault found locked _
  refine (anyConditionMet_readonly env id mode _).wp fun _ _ => ?_
  refine (isExpired_readonly env id).wp fun _ _ => ?_
  refine (assertGracePeriodOver_readonly env id vault).wp fun _ => ?_
  refine (assertNotVetoed_readonly env id).wp fun _ => ?_
  refine (assertBeneficiaryAccepts_readonly id vault _).wp fun _ => ?_
  refine (assertReleaseVoted_readonly env id).wp fun _ => ?_
  simp only [wp_rules, markReleaseAttempted]
  exact ⟨fun missed => refund vault found locked.2 missed, fun inTime =>
    ⟨fun vesting => wait vault found locked.2 (Bool.eq_false_iff.mpr inTime) vesting () _ rfl,
      fun none => pay vault found locked.2 (Bool.eq_false_iff.mpr inTime) (Bool.eq_false_iff.mpr none)⟩⟩

end Gates

end EthosContracts.TtlVault
