/-
**The accounts of the insurance pool.**
-/

import EthosContracts.InsurancePool.Books
import Mathlib.Data.List.Nodup

namespace EthosContracts.InsurancePool

open Lib Soroban Function List
open TtlVault (Address)

/-! ### What is accounted for -/

/-- What left the pool by an event that decides a claim. -/
def payment (pool : Address) (claimId : Nat) (event : PoolEvent) : Int :=
  if event.input.call.decides = some claimId then
    holdings pool event.before - holdings pool event.after
  else 0

def paidOut (pool : Address) (claimId : Nat) (history : List PoolEvent) : Int :=
  (history.map (payment pool claimId)).sum

/-- The claims filed on a vault during a part of a run. -/
def filedOn (id : Nat) (events : List PoolEvent) : List Nat :=
  events.filterMap fun event =>
    if event.input.call.files = some id then some event.before.nextClaimId else none

/-- **The accounts of a run.** A coverage lasts from its purchase to the next one for the vault, or
to the end of the run. -/
structure Accounted (pool : Address) (history : List PoolEvent) (s : PoolState) : Prop where
  backed : ∀ token, s.token = some token → s.reserve = s.ledger token pool
  solvent : 0 ≤ s.reserve
  ranges : ∀ id coverage, s.coverages id = some coverage →
    0 ≤ coverage.pending ∧ coverage.pending ≤ coverage.remaining ∧
      coverage.remaining ≤ coverage.limit
  pending : ∀ id coverage, s.coverages id = some coverage → Tally (asked id s) coverage.pending
  once : (history.filterMap (·.input.call.decides)).Nodup
  terms : ∀ before purchase during after owner id amount durationSecs,
    history = before ++ purchase :: (during ++ after) →
    purchase.input.call = .purchaseCoverage owner id amount durationSecs →
    (∀ event ∈ during, event.input.call.buys ≠ some id) →
    (∀ next ∈ after.head?, next.input.call.buys = some id) →
    ∃ coverage, (after.head?.elim s Event.before).coverages id = some coverage ∧
      coverage.limit = amount ∧
      Tally (fun claimId => if claimId ∈ filedOn id during then paidOut pool claimId history
        else 0) (coverage.limit - coverage.remaining) ∧
      coverage.limit - coverage.remaining ≤ coverage.limit

section Claims

variable {pool : Address} {s t : PoolState} {call : PoolCall} {claimId : Nat} {claim : Claim}

theorem Writes.kept (writes : Writes pool s call t) (sound : Sound pool s)
    (stored : s.claims claimId = some claim) (decided : claim.status ≠ .pending) :
    t.claims claimId = some claim := by
  cases writes with
  | nothing claims => rw [claims, stored]
  | filed _ claims =>
    rw [claims, update_of_ne (sound.claims claimId claim stored).1.ne, stored]
  | decided _ claims _ _ _ before undecided =>
    rw [claims, update_of_ne, stored]
    rintro rfl
    cases stored.symm.trans before
    exact decided undecided

/-- A claim is decided once. -/
theorem Writes.decides_once (writes : Writes pool s call t)
    (decides : call.decides = some claimId) :
    (∃ claim, s.claims claimId = some claim ∧ claim.status = .pending) ∧
      ∃ claim, t.claims claimId = some claim ∧ claim.status ≠ .pending := by
  cases writes with
  | nothing _ _ _ none | filed _ _ _ _ none =>
    rw [none] at decides
    cases decides
  | decided _ claims _ _ same stored undecided final =>
    cases same.symm.trans decides
    rw [claims, update_self]
    exact ⟨⟨_, stored, undecided⟩, _, rfl, final⟩

/-- What is recorded as paid left the pool. -/
theorem Writes.recorded_eq {input : PoolInput} (writes : Writes pool s input.call t)
    (before : Sound pool s) (after : Sound pool t) (claimId : Nat) :
    recorded t claimId = recorded s claimId + payment pool claimId ⟨s, input, t⟩ := by
  rw [payment, before.holdings_eq, after.holdings_eq]
  cases writes with
  | nothing claims _ _ decides =>
    rw [if_neg (by rw [decides]; simp), add_zero, recorded, recorded, claims]
  | filed booking claims _ _ decides unpaid =>
    rw [if_neg (by rw [decides]; simp), add_zero, recorded_of_write claims, unpaid,
      ← booking.unpaid, update_eq_self]
  | @decided old new decided _ claim booking claims _ _ decides _ _ _ paid =>
    rw [recorded_of_write claims, decides]
    by_cases same : claimId = decided
    · subst same
      rw [update_self, booking.unpaid, if_pos rfl, paid]
      omega
    · rw [update_of_ne same, if_neg fun equal => same (Option.some.inj equal).symm, add_zero]

end Claims

/-! ### The account of one coverage -/

/-- **The account of a coverage**, with the claims filed under it: the payouts on them are what it
lost, and an undecided claim on the vault is one of them. -/
structure Term (id : Nat) (limit : Int) (ids : List Nat) (s : PoolState) : Prop where
  coverage : ∃ coverage, s.coverages id = some coverage ∧ coverage.limit = limit ∧
    Tally (fun claimId => if claimId ∈ ids then recorded s claimId else 0)
      (coverage.limit - coverage.remaining)
  filed : ∀ claimId ∈ ids, ∃ claim, s.claims claimId = some claim ∧ claim.vaultId = id
  undecided : ∀ claimId claim, s.claims claimId = some claim → claim.vaultId = id →
    claim.status = .pending → claimId ∈ ids

section Terms

variable {pool : Address} {s t : PoolState} {old new : Coverage} {claimId id : Nat}
  {claim : Claim} {limit : Int} {ids later : List Nat} {call : PoolCall}

theorem Term.congr (term : Term id limit ids s) (claims : t.claims = s.claims)
    (coverages : t.coverages id = s.coverages id) : Term id limit ids t := by
  have same : recorded t = recorded s := by
    funext other
    rw [recorded, recorded, claims]
  refine ⟨?_, ?_, ?_⟩
  · rw [coverages, same]
    exact term.coverage
  · rw [claims]
    exact term.filed
  · rw [claims]
    exact term.undecided

theorem Booking.mem_iff (booking : Booking pool s old new claimId claim)
    (term : Term id limit ids s)
    (members : ∀ other, other ∈ later ↔ other ∈ ids ∨ other = claimId ∧ claim.vaultId = id) :
    claimId ∈ later ↔ claim.vaultId = id := by
  rw [members]
  refine ⟨?_, fun same => .inr ⟨rfl, same⟩⟩
  rintro (listed | ⟨-, same⟩)
  · obtain ⟨stored, present, vault⟩ := term.filed claimId listed
    exact (booking.sameVault stored present).symm.trans vault
  · exact same

theorem Term.booked (term : Term id limit ids s)
    (booking : Booking pool s old new claimId claim)
    (claims : t.claims = update s.claims claimId (some claim))
    (coverages : t.coverages = update s.coverages claim.vaultId (some new))
    (members : ∀ other, other ∈ later ↔ other ∈ ids ∨ other = claimId ∧ claim.vaultId = id) :
    Term id limit later t := by
  have own := booking.mem_iff term members
  obtain ⟨coverage, held, limited, tally⟩ := term.coverage
  have sums : (fun other => if other ∈ later then recorded t other else 0) =
      update (fun other => if other ∈ ids then recorded s other else 0) claimId
        (if claim.vaultId = id then claim.paid else 0) := by
    funext other
    rw [recorded_of_write claims]
    by_cases same : other = claimId
    · subst same
      simp only [update_self, own]
    · simp only [update_of_ne same, members, same, false_and, or_false]
  have moved := tally.set claimId (if claim.vaultId = id then claim.paid else 0)
  simp only [booking.unpaid, ite_self, sub_zero] at moved
  refine ⟨?_, fun other listed => ?_, fun other written stored vault undecided => ?_⟩
  · rw [sums, coverages]
    by_cases same : claim.vaultId = id
    · subst same
      cases booking.held.symm.trans held
      rw [update_self]
      refine ⟨new, rfl, booking.limit.trans limited, ?_⟩
      rw [if_pos rfl] at moved ⊢
      have total : old.limit - (old.remaining - claim.paid) =
          old.limit - old.remaining + claim.paid := by omega
      rw [booking.limit, booking.remaining, total]
      exact moved
    · rw [update_of_ne (Ne.symm same)]
      rw [if_neg same] at moved ⊢
      rw [add_zero] at moved
      exact ⟨coverage, held, limited, moved⟩
  · rw [claims]
    by_cases same : other = claimId
    · subst same
      rw [update_self]
      exact ⟨claim, rfl, own.mp listed⟩
    · rw [update_of_ne same]
      rcases (members other).mp listed with before | ⟨here, -⟩
      · exact term.filed other before
      · exact absurd here same
  · rw [claims] at stored
    rcases update_eq_some_iff.mp stored with ⟨rfl, rfl⟩ | ⟨-, before⟩
    · exact own.mpr vault
    · exact (members other).mpr (.inl (term.undecided other written before vault undecided))

theorem Term.step (term : Term id limit ids s) (writes : Writes pool s call t)
    (other : call.buys ≠ some id) :
    Term id limit (ids ++ if call.files = some id then [s.nextClaimId] else []) t := by
  cases writes with
  | nothing claims coverages files =>
    rw [if_neg (by rw [files]; simp), append_nil]
    exact term.congr claims (coverages id other)
  | @filed _ _ claim booking claims coverages files =>
    refine term.booked booking claims coverages fun number => ?_
    rw [files]
    by_cases same : claim.vaultId = id
    · simp [same]
    · simp [same]
  | decided booking claims coverages files _ stored undecided =>
    rw [if_neg (by rw [files]; simp), append_nil]
    refine term.booked booking claims coverages fun number => ?_
    refine ⟨.inl, fun either => either.elim (fun kept => kept) ?_⟩
    rintro ⟨rfl, vault⟩
    exact term.undecided number _ stored ((booking.sameVault _ stored).trans vault) undecided

theorem Sound.decided (sound : Sound pool s)
    (free : ∀ old, s.coverages claim.vaultId = some old → old.pending ≤ 0)
    (stored : s.claims claimId = some claim) : claim.status ≠ .pending := by
  intro undecided
  have least := (sound.pending claim.vaultId).le_total (asked_nonneg sound claim.vaultId) claimId
  rw [sound.pendingOn_free free, asked_pending stored undecided] at least
  exact absurd (sound.claims claimId claim stored).2.2.1 (Int.not_lt.mpr least)

theorem PoolStep.free (stepped : PoolStep pool s call t) (buys : call.buys = some id) :
    ∀ old, s.coverages id = some old → old.pending ≤ 0 := by
  cases stepped with
  | bought _ _ free =>
    obtain rfl := Option.some.inj buys
    exact free
  | _ => cases buys

theorem Term.bought {owner : Address} {durationSecs : Nat} (sound : Sound pool s)
    (stepped : PoolStep pool s (.purchaseCoverage owner id limit durationSecs) t) :
    Term id limit [] t := by
  have free := stepped.free rfl
  cases stepped with
  | bought ready pos _ charged cash new =>
    cases cash
    refine ⟨⟨_, update_self _ _ _, new.1, ?_⟩, by simp, ?_⟩
    · rw [new.1, new.2.1, sub_self]
      simpa using tally_zero
    · rintro claimId claim stored rfl undecided
      exact absurd undecided (sound.decided free stored)

end Terms

section Runs

variable {pool : Address} {ledger : Ledger Address Address} {history during : List PoolEvent}
  {start s t : PoolState} {id : Nat} {limit : Int}

theorem poolStep_step {input : PoolInput} (stepped : poolStep pool s input t) :
    PoolStep pool s input.call t := by
  obtain ⟨rfl, ran⟩ := stepped
  exact execPool_step () t ran

theorem sound_start (empty : ∀ token, ledger token pool = 0) : Sound pool { ledger := ledger } where
  blank _ := rfl
  backed token := (empty token).trans (ite_self _).symm
  solvent := le_rfl
  claims := by simp
  ranges := by simp
  pending id := tally_zero

theorem run_sound (sound : Sound pool start) (run : Run (poolStep pool) start history s) :
    Sound pool s :=
  run.invariant (Sound pool) (fun _ _ => True) sound
    (fun _ _ _ sound _ stepped => sound.step (poolStep_step stepped)) (fun _ _ => trivial)

theorem run_kept {claimId : Nat} {claim : Claim} (sound : Sound pool start)
    (run : Run (poolStep pool) start history s) (stored : start.claims claimId = some claim)
    (decided : claim.status ≠ .pending) : s.claims claimId = some claim := by
  induction run with
  | nil => exact stored
  | snoc run stepped ih =>
    have before := run_sound sound run
    exact ((poolStep_step stepped).writes before).kept before ih decided

theorem run_decides (sound : Sound pool start) (run : Run (poolStep pool) start history s) :
    (history.filterMap (·.input.call.decides)).Nodup ∧
      ∀ claimId ∈ history.filterMap (·.input.call.decides),
        ∃ claim, s.claims claimId = some claim ∧ claim.status ≠ .pending := by
  induction run with
  | nil => simp
  | @snoc front r t input run stepped ih =>
    obtain ⟨once, decided⟩ := ih
    have before := run_sound sound run
    have writes := (poolStep_step stepped).writes before
    have kept : ∀ claimId ∈ front.filterMap (·.input.call.decides),
        ∃ claim, t.claims claimId = some claim ∧ claim.status ≠ .pending := by
      intro claimId member
      obtain ⟨claim, stored, final⟩ := decided claimId member
      exact ⟨claim, writes.kept before stored final, final⟩
    rw [filterMap_append]
    cases decides : input.call.decides with
    | none =>
      simp only [filterMap_cons, decides, filterMap_nil, append_nil]
      exact ⟨once, kept⟩
    | some claimId =>
      obtain ⟨⟨claim, stored, undecided⟩, final⟩ := writes.decides_once decides
      have new : claimId ∉ front.filterMap (·.input.call.decides) := by
        intro member
        obtain ⟨same, present, settled⟩ := decided claimId member
        cases stored.symm.trans present
        exact settled undecided
      simp only [filterMap_cons, decides, filterMap_nil]
      refine ⟨nodup_append.mpr ⟨once, by simp, ?_⟩, ?_⟩
      · rintro other member _ last rfl
        rw [mem_singleton.mp last] at member
        exact new member
      · exact forall_mem_concat.mpr ⟨kept, final⟩

theorem run_recorded (empty : ∀ token, ledger token pool = 0)
    (run : PoolRun pool ledger history s) (claimId : Nat) :
    recorded s claimId = paidOut pool claimId history := by
  induction run with
  | nil => rfl
  | snoc run stepped ih =>
    have before := run_sound (sound_start empty) run
    have after := before.step (poolStep_step stepped)
    rw [((poolStep_step stepped).writes before).recorded_eq before after claimId, ih, paidOut,
      paidOut, map_append, sum_append, map_singleton, sum_singleton]

theorem run_term (sound : Sound pool start) (run : Run (poolStep pool) start during s)
    (term : Term id limit [] start)
    (other : ∀ event ∈ during, event.input.call.buys ≠ some id) :
    Term id limit (filedOn id during) s := by
  induction run with
  | nil => exact term
  | @snoc front r t input run stepped ih =>
    have before := ih (forall_mem_concat.mp other).1
    have writes := (poolStep_step stepped).writes (run_sound sound run)
    have after := before.step writes (other _ mem_concat_self)
    have listed : filedOn id (front ++ [⟨r, input, t⟩]) = filedOn id front ++
        if input.call.files = some id then [r.nextClaimId] else [] := by
      rw [filedOn, filterMap_append, ← filedOn]
      split <;> simp [*]
    rw [listed]
    exact after

theorem run_settled {ids : List Nat} {after : List PoolEvent} (sound : Sound pool start)
    (run : Run (poolStep pool) start after s) (term : Term id limit ids start)
    (next : ∀ event ∈ after.head?, event.input.call.buys = some id) :
    after.head?.elim s Event.before = start ∧
      ∀ claimId ∈ ids, recorded s claimId = recorded start claimId := by
  cases after with
  | nil =>
    obtain rfl := run.eq_start
    exact ⟨rfl, fun _ _ => rfl⟩
  | cons event later =>
    obtain ⟨rfl, stepped, -⟩ := run.uncons
    refine ⟨rfl, fun claimId member => ?_⟩
    obtain ⟨claim, stored, rfl⟩ := term.filed claimId member
    have free := (poolStep_step stepped).free (next event rfl)
    rw [recorded, recorded, stored, run_kept sound run stored (sound.decided free stored)]

/-- **The pool's accounts** add up in every run that starts without holdings. -/
theorem accounted (empty : ∀ token, ledger token pool = 0) (run : PoolRun pool ledger history s) :
    Accounted pool history s := by
  have sound := run_sound (sound_start empty) run
  refine ⟨fun token set => ?_, sound.solvent, fun id coverage held => ?_,
    fun id coverage held => ?_, (run_decides (sound_start empty) run).1, ?_⟩
  · rw [sound.backed, if_pos set]
  · rw [← pendingOn_some held]
    exact ⟨sound.pending_nonneg id, pendingOn_some held ▸ sound.ranges id coverage held⟩
  · rw [← pendingOn_some held]
    exact sound.pending id
  · intro before purchase during after owner id amount durationSecs whole call quiet next
    obtain ⟨first, stepped, rest⟩ := run.at_split whole
    obtain ⟨middle, second, third⟩ := rest.split during after rfl
    have opened := run_sound (sound_start empty) first
    have bought := poolStep_step stepped
    have sound := opened.step bought
    rw [call] at bought
    have term := run_term sound second (Term.bought opened bought) quiet
    obtain ⟨last, final⟩ := run_settled (run_sound sound second) third term next
    obtain ⟨coverage, held, limited, tally⟩ := term.coverage
    have paid : (fun claimId => if claimId ∈ filedOn id during then
          recorded middle claimId else 0) =
        fun claimId => if claimId ∈ filedOn id during then paidOut pool claimId history
          else 0 := by
      funext claimId
      split
      · rw [← final claimId ‹_›, run_recorded empty run]
      · rfl
    rw [last, ← paid]
    have range := (run_sound sound second).ranges id coverage held
    have least := (run_sound sound second).pending_nonneg id
    rw [pendingOn_some held] at least
    exact ⟨coverage, held, limited, tally, by omega⟩

end Runs

/-! ### A partial payout, and a second coverage -/

def signedCalls (calls : List (Nat × Address × PoolCall)) : List PoolInput :=
  calls.map fun (now, signer, call) => ⟨⟨⟨0⟩, now, [signer]⟩, call⟩

def sampleLedger : Ledger Address Address := fun token holder =>
  if token = ⟨9⟩ ∧ holder ≠ ⟨0⟩ then 1000 else 0

def partlyPaid : List PoolInput :=
  signedCalls [(1, ⟨2⟩, .initializeContract ⟨2⟩ ⟨9⟩ 10000), (2, ⟨6⟩, .fundReserve ⟨6⟩ 50),
    (3, ⟨3⟩, .purchaseCoverage ⟨3⟩ 1 100 10), (4, ⟨3⟩, .fileClaim ⟨3⟩ 1 80),
    (5, ⟨2⟩, .processClaim ⟨2⟩ 1 true), (6, ⟨3⟩, .fileClaim ⟨3⟩ 1 100),
    (7, ⟨2⟩, .processClaim ⟨2⟩ 2 false), (20, ⟨3⟩, .purchaseCoverage ⟨3⟩ 1 60 10)]

theorem accounted_partlyPaid :
    ((play execPool { ledger := sampleLedger } partlyPaid).2.claims 1).map
        (fun claim => (claim.requested, claim.paid, claim.status)) = some (80, 51, .partiallyPaid) ∧
      ((play execPool { ledger := sampleLedger } partlyPaid).2.coverages 1).map
        (fun coverage => (coverage.limit, coverage.remaining)) = some (60, 60) ∧
      (play execPool { ledger := sampleLedger } partlyPaid).2.reserve = 1 ∧
      Accounted ⟨0⟩ (play execPool { ledger := sampleLedger } partlyPaid).1
        (play execPool { ledger := sampleLedger } partlyPaid).2 := by
  refine ⟨by decide +kernel, by decide +kernel, by decide +kernel,
    accounted (fun token => by simp [sampleLedger]) (play_run ?_)⟩
  intro input member s t ran
  obtain ⟨call, -, rfl⟩ := mem_map.mp member
  exact ⟨rfl, ran⟩

end EthosContracts.InsurancePool
