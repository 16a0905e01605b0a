/-
**The books of the insurance pool.**

Three records describe the same money: the stored reserve, the token ledger, and per vault what a
coverage still owes and what its undecided claims ask for.
-/

import EthosContracts.InsurancePool.Pool
import EthosContracts.Lib.Tally
import EthosContracts.Lib.Table

namespace EthosContracts.InsurancePool

open Lib Soroban Function
open TtlVault (Address)

/-! ### What the books say -/

/-- What a claim asks for on a vault, as long as it is undecided. -/
def Claim.asked (id : Nat) (claim : Claim) : Int :=
  if claim.vaultId = id ∧ claim.status = .pending then claim.requested else 0

def asked (id : Nat) (s : PoolState) (claimId : Nat) : Int :=
  (s.claims claimId).elim 0 (Claim.asked id)

def recorded (s : PoolState) (claimId : Nat) : Int := (s.claims claimId).elim 0 Claim.paid

def holdings (pool : Address) (s : PoolState) : Int := s.token.elim 0 (s.ledger · pool)

def PoolCall.buys : PoolCall → Option Nat
  | .purchaseCoverage _ id _ _ => some id
  | _ => none

def PoolCall.files : PoolCall → Option Nat
  | .fileClaim _ id _ => some id
  | _ => none

def PoolCall.decides : PoolCall → Option Nat
  | .processClaim _ claimId _ => some claimId
  | _ => none

/-! ### The invariant of the state -/

def pendingOn (s : PoolState) (id : Nat) : Int :=
  (s.coverages id).elim 0 Coverage.pending

/-- The invariant of the state. -/
structure Sound (pool : Address) (s : PoolState) : Prop where
  blank : s.admin = none ∨ s.token = none ∨ s.premiumRateBps = none → s = { ledger := s.ledger }
  backed : ∀ token, s.ledger token pool = if s.token = some token then s.reserve else 0
  solvent : 0 ≤ s.reserve
  claims : ∀ claimId claim, s.claims claimId = some claim →
    claimId < s.nextClaimId ∧ claim.owner ≠ pool ∧ 0 < claim.requested ∧
      (claim.status = .pending → claim.paid = 0)
  ranges : ∀ id coverage, s.coverages id = some coverage →
    coverage.pending ≤ coverage.remaining ∧ coverage.remaining ≤ coverage.limit
  pending : ∀ id, Tally (asked id s) (pendingOn s id)

/-- **A coverage and a claim written together**: what is asked for and what is paid move alike. -/
structure Booking (pool : Address) (s : PoolState) (old new : Coverage) (claimId : Nat)
    (claim : Claim) : Prop where
  held : s.coverages claim.vaultId = some old
  limit : new.limit = old.limit
  pending : new.pending = old.pending + (claim.asked claim.vaultId - asked claim.vaultId s claimId)
  remaining : new.remaining = old.remaining - claim.paid
  covered : new.pending ≤ new.remaining
  unpaid : recorded s claimId = 0
  sameVault : ∀ stored, s.claims claimId = some stored → stored.vaultId = claim.vaultId
  owner : claim.owner ≠ pool
  pos : 0 < claim.requested
  paid : 0 ≤ claim.paid
  undecided : claim.status = .pending → claim.paid = 0

section Sound

variable {pool : Address} {s t : PoolState} {old new : Coverage} {claimId id : Nat} {claim : Claim}

theorem Claim.asked_of_ne (other : claim.vaultId ≠ id) : claim.asked id = 0 :=
  if_neg fun both => other both.1

theorem asked_some (stored : s.claims claimId = some claim) :
    asked id s claimId = claim.asked id := by
  rw [asked, stored]
  rfl

theorem asked_pending (stored : s.claims claimId = some claim)
    (undecided : claim.status = .pending) :
    asked claim.vaultId s claimId = claim.requested := by
  rw [asked_some stored, Claim.asked, if_pos ⟨rfl, undecided⟩]

theorem asked_of_write (written : t.claims = update s.claims claimId (some claim)) :
    asked id t = update (asked id s) claimId (claim.asked id) := by
  funext other
  by_cases same : other = claimId
  · subst same
    simp [asked, written]
  · simp [asked, written, same]

theorem recorded_of_write (written : t.claims = update s.claims claimId (some claim)) :
    recorded t = update (recorded s) claimId claim.paid := by
  funext other
  by_cases same : other = claimId
  · subst same
    simp [recorded, written]
  · simp [recorded, written, same]

theorem asked_nonneg (sound : Sound pool s) (id claimId : Nat) : 0 ≤ asked id s claimId := by
  cases stored : s.claims claimId with
  | none => simp [asked, stored]
  | some claim =>
    rw [asked_some stored, Claim.asked]
    split
    · exact (sound.claims claimId claim stored).2.2.1.le
    · exact le_rfl

theorem Sound.fresh (sound : Sound pool s) : s.claims s.nextClaimId = none :=
  Option.eq_none_iff_forall_ne_some.mpr fun claim stored => (sound.claims _ claim stored).1.ne rfl

theorem Sound.pending_nonneg (sound : Sound pool s) (id : Nat) : 0 ≤ pendingOn s id :=
  (sound.pending id).nonneg (asked_nonneg sound id)

theorem pendingOn_some (held : s.coverages id = some old) : pendingOn s id = old.pending := by
  rw [pendingOn, held]
  rfl

theorem Sound.holdings_eq (sound : Sound pool s) : holdings pool s = s.reserve := by
  cases set : s.token with
  | none =>
    rw [sound.blank (.inr (.inl set))]
    rfl
  | some token =>
    rw [holdings, set]
    exact (sound.backed token).trans (if_pos set)

theorem Sound.cash {change : Int} (sound : Sound pool s) (cash : Cash pool s change t)
    (ready : s.token = none → change = 0) (enough : 0 ≤ s.reserve + change) : Sound pool t := by
  obtain ⟨ledger, moved⟩ := cash
  refine ⟨fun unset => ?_, fun token => ?_, enough, sound.claims, sound.ranges, sound.pending⟩
  · have blank := sound.blank unset
    have none : s.token = none := by rw [blank]
    rw [ready none]
    rw [blank]
    rfl
  · show ledger token pool = if s.token = some token then s.reserve + change else 0
    rw [moved, sound.backed]
    split
    · rfl
    · rfl

theorem Booking.pendingOn_eq (booking : Booking pool s old new claimId claim) (id : Nat) :
    pendingOn (s.booked new claimId claim) id =
      pendingOn s id + (claim.asked id - asked id s claimId) := by
  by_cases same : claim.vaultId = id
  · subst same
    rw [pendingOn_some booking.held, ← booking.pending]
    exact pendingOn_some (update_self _ _ _)
  · have nothing : asked id s claimId = 0 := by
      cases stored : s.claims claimId with
      | none => simp [asked, stored]
      | some before =>
        rw [asked_some stored]
        exact Claim.asked_of_ne fun equal => same ((booking.sameVault before stored).symm.trans equal)
    have apart : (s.booked new claimId claim).coverages id = s.coverages id :=
      update_of_ne (Ne.symm same) _ _
    rw [Claim.asked_of_ne same, nothing, sub_zero, add_zero, pendingOn, pendingOn, apart]

section

variable (sound : Sound pool s)
include sound

theorem Sound.booked (booking : Booking pool s old new claimId claim)
    {next : Nat} (number : claimId < next) (later : s.nextClaimId ≤ next) :
    Sound pool { s.booked new claimId claim with nextClaimId := next } := by
  refine ⟨fun unset => ?_, sound.backed, sound.solvent, ?_, ?_, fun id => ?_⟩
  · have held := booking.held
    rw [sound.blank unset] at held
    cases held
  · intro other written stored
    rcases update_eq_some_iff.mp stored with ⟨rfl, rfl⟩ | ⟨-, before⟩
    · exact ⟨number, booking.owner, booking.pos, booking.undecided⟩
    · obtain ⟨below, rest⟩ := sound.claims other written before
      exact ⟨below.trans_le later, rest⟩
  · intro id coverage stored
    rcases update_eq_some_iff.mp stored with ⟨rfl, rfl⟩ | ⟨-, before⟩
    · refine ⟨booking.covered, ?_⟩
      rw [booking.remaining, booking.limit]
      exact (Int.sub_le_self _ booking.paid).trans (sound.ranges _ old booking.held).2
    · exact sound.ranges id coverage before
  · show Tally (asked id (s.booked new claimId claim)) (pendingOn (s.booked new claimId claim) id)
    rw [asked_of_write rfl, booking.pendingOn_eq]
    exact (sound.pending id).set claimId (claim.asked id)

/-! ### One call -/

theorem filed_booking (held : s.coverages claim.vaultId = some old)
    (other : claim.owner ≠ pool) (unpaid : claim.paid = 0) (undecided : claim.status = .pending)
    (pos : 0 < claim.requested) (fits : claim.requested ≤ old.remaining - old.pending) :
    Booking pool s old { old with pending := old.pending + claim.requested } s.nextClaimId claim := by
  have fresh := sound.fresh
  have none : asked claim.vaultId s s.nextClaimId = 0 := by rw [asked, fresh]; rfl
  refine ⟨held, rfl, ?_, by simp [unpaid], ?_, by rw [recorded, fresh]; rfl, ?_, other, pos,
    unpaid.ge, fun _ => unpaid⟩
  · rw [none, sub_zero, Claim.asked, if_pos ⟨rfl, undecided⟩]
  · show old.pending + claim.requested ≤ old.remaining
    omega
  · intro stored before
    rw [fresh] at before
    cases before

theorem decided_booking {before : Claim}
    (stored : s.claims claimId = some before) (undecided : before.status = .pending)
    (held : s.coverages before.vaultId = some old) (payout : Int) (status : ClaimStatus)
    (some : 0 ≤ payout) (capped : payout ≤ before.requested) (decided : status ≠ .pending) :
    Booking pool s old { old with
        pending := old.pending - before.requested
        remaining := old.remaining - payout } claimId
      { before with paid := payout, status := status } := by
  obtain ⟨-, owner, pos, unpaid⟩ := sound.claims claimId before stored
  refine ⟨held, rfl, ?_, rfl, ?_, ?_, ?_, owner, pos, some, fun pending => ?_⟩
  · show old.pending - before.requested = old.pending + (_ - asked before.vaultId s claimId)
    rw [asked_pending stored undecided, Claim.asked, if_neg fun both => decided both.2]
    omega
  · show old.pending - before.requested ≤ old.remaining - payout
    have range := (sound.ranges _ old held).1
    omega
  · rw [recorded, stored]
    exact unpaid undecided
  · intro same equal
    cases stored.symm.trans equal
    rfl
  · exact absurd pending decided

theorem Sound.paidOut {payout : Int} (stored : s.claims claimId = some claim)
    (capped : payout = min claim.requested s.reserve)
    (cash : claim.owner ≠ pool → Cash pool s (-max payout 0) t) :
    0 ≤ payout ∧ payout ≤ claim.requested ∧ payout ≤ s.reserve ∧ Cash pool s (-payout) t := by
  obtain ⟨-, outside, pos, -⟩ := sound.claims claimId claim stored
  have nonneg : 0 ≤ payout := by
    rw [capped]
    exact le_min pos.le sound.solvent
  have paid := cash outside
  rw [max_eq_left nonneg] at paid
  obtain ⟨asked, there⟩ := le_min_iff.mp capped.le
  exact ⟨nonneg, asked, there, paid⟩

theorem rejected_booking (stored : s.claims claimId = some claim)
    (undecided : claim.status = .pending) (held : s.coverages claim.vaultId = some old) :
    Booking pool s old { old with pending := old.pending - claim.requested } claimId
      { claim with status := .rejected } := by
  obtain ⟨-, -, pos, unpaid⟩ := sound.claims claimId claim stored
  have booking := decided_booking sound stored undecided held 0 .rejected le_rfl pos.le (by simp)
  rw [sub_zero] at booking
  rw [← unpaid undecided] at booking
  exact booking

theorem Sound.pendingOn_free (free : ∀ old, s.coverages id = some old → old.pending ≤ 0) :
    pendingOn s id = 0 := by
  refine le_antisymm ?_ (sound.pending_nonneg id)
  cases held : s.coverages id with
  | none => rw [pendingOn, held]; rfl
  | some old =>
    rw [pendingOn_some held]
    exact free old held

theorem Sound.insured (ready : s.premiumRateBps.isSome)
    (free : ∀ old, s.coverages id = some old → old.pending ≤ 0)
    (pending : new.pending = 0) (range : 0 ≤ new.remaining ∧ new.remaining ≤ new.limit) :
    Sound pool { s with coverages := update s.coverages id (some new) } := by
  refine ⟨fun unset => ?_, sound.backed, sound.solvent, sound.claims, ?_, fun other => ?_⟩
  · rw [sound.blank unset] at ready
    cases ready
  · intro other coverage stored
    rcases update_eq_some_iff.mp stored with ⟨rfl, rfl⟩ | ⟨-, before⟩
    · rw [pending]
      exact range
    · exact sound.ranges other coverage before
  · have same : pendingOn { s with coverages := update s.coverages id (some new) }
        other = pendingOn s other := by
      by_cases here : other = id
      · subst here
        rw [sound.pendingOn_free free, ← pending]
        exact pendingOn_some (update_self _ _ _)
      · simp [pendingOn, here]
    rw [same]
    exact sound.pending other

theorem Sound.step {call : PoolCall} (stepped : PoolStep pool s call t) : Sound pool t := by
  cases stepped with
  | started blank =>
    obtain ⟨ledger, rfl⟩ : ∃ ledger, s = { ledger := ledger } := ⟨_, sound.blank (.inl blank)⟩
    refine ⟨by simp, fun token => ?_, le_rfl, sound.claims, sound.ranges, sound.pending⟩
    rw [ite_self]
    exact sound.backed token
  | rated ready =>
    refine ⟨fun unset => ?_, sound.backed, sound.solvent, sound.claims, sound.ranges, sound.pending⟩
    have blank : s = { ledger := s.ledger } := by
      refine sound.blank (unset.imp_right fun later => .inl (later.resolve_right ?_))
      exact Option.some_ne_none _
    rw [blank] at ready
    cases ready
  | funded ready pos cash =>
    refine sound.cash cash (fun unset => ?_) (Int.add_nonneg sound.solvent pos.le)
    rw [unset] at ready
    cases ready
  | @bought owner id durationSecs amount premium t coverage ready pos free charged cash new =>
    have paid := sound.cash cash (fun unset => ?_) (Int.add_nonneg sound.solvent charged)
    · cases cash
      exact paid.insured ready free new.2.2 (by rw [new.1, new.2.1]; exact ⟨pos.le, le_rfl⟩)
    · rw [sound.blank (.inr (.inl unset))] at ready
      cases ready
  | filed claim held new pos fits =>
    obtain ⟨rfl, other, unpaid, undecided⟩ := new
    exact sound.booked (filed_booking sound held other unpaid undecided pos fits)
      (Nat.lt_succ_self _) (Nat.le_succ _)
  | rejected stored undecided held =>
    exact sound.booked (rejected_booking sound stored undecided held)
      (sound.claims _ _ stored).1 le_rfl
  | @approved admin claimId claim coverage payout status t stored undecided held capped decided
      cash =>
    obtain ⟨some, most, there, cash⟩ := sound.paidOut stored capped cash
    have paid := sound.cash cash ?_ (by omega)
    · cases cash
      exact paid.booked (decided_booking paid stored undecided held payout status some most decided)
        (sound.claims _ _ stored).1 le_rfl
    · intro unset
      rw [sound.blank (.inr (.inl unset))] at stored
      cases stored
  | elsewhere cash => exact sound.cash cash (fun _ => rfl) (by simpa using sound.solvent)

end

/-- **What a call writes about claims**: nothing, a new claim, or the decision on one. -/
inductive Writes (pool : Address) (s : PoolState) (call : PoolCall) (t : PoolState) : Prop
  | nothing (claims : t.claims = s.claims)
      (coverages : ∀ id, call.buys ≠ some id → t.coverages id = s.coverages id)
      (files : call.files = none) (decides : call.decides = none)
  | filed {old new : Coverage} {claim : Claim}
      (booking : Booking pool s old new s.nextClaimId claim)
      (claims : t.claims = update s.claims s.nextClaimId (some claim))
      (coverages : t.coverages = update s.coverages claim.vaultId (some new))
      (files : call.files = some claim.vaultId) (decides : call.decides = none)
      (unpaid : claim.paid = 0)
  | decided {old new : Coverage} {claimId : Nat} {before claim : Claim}
      (booking : Booking pool s old new claimId claim)
      (claims : t.claims = update s.claims claimId (some claim))
      (coverages : t.coverages = update s.coverages claim.vaultId (some new))
      (files : call.files = none) (decides : call.decides = some claimId)
      (stored : s.claims claimId = some before) (undecided : before.status = .pending)
      (final : claim.status ≠ .pending) (paid : t.reserve = s.reserve - claim.paid)

theorem PoolStep.writes {call : PoolCall} (stepped : PoolStep pool s call t)
    (sound : Sound pool s) : Writes pool s call t := by
  cases stepped with
  | started | rated => exact .nothing rfl (fun _ _ => rfl) rfl rfl
  | funded _ _ cash | elsewhere cash =>
    cases cash
    exact .nothing rfl (fun _ _ => rfl) rfl rfl
  | bought _ _ _ _ cash =>
    cases cash
    refine .nothing rfl (fun id other => update_of_ne (fun same => other ?_) _ _) rfl rfl
    rw [same]
    rfl
  | filed claim held new pos fits =>
    obtain ⟨rfl, other, unpaid, undecided⟩ := new
    exact .filed (filed_booking sound held other unpaid undecided pos fits) rfl rfl rfl rfl unpaid
  | @rejected admin claimId claim coverage stored undecided held =>
    refine .decided (rejected_booking sound stored undecided held) rfl rfl rfl rfl stored undecided
      (by simp) ?_
    show s.reserve = s.reserve - claim.paid
    rw [(sound.claims claimId claim stored).2.2.2 undecided, sub_zero]
  | @approved admin claimId claim coverage payout status t stored undecided held capped decided
      cash =>
    obtain ⟨some, most, -, cash⟩ := sound.paidOut stored capped cash
    cases cash
    exact .decided (decided_booking sound stored undecided held payout status some most decided)
      rfl rfl rfl rfl stored undecided decided rfl

end Sound

end EthosContracts.InsurancePool
