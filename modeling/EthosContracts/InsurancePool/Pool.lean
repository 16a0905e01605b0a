/-
**The `insurance_pool` contract**: premiums, coverage and claims out of one reserve.
-/

import Mathlib.Tactic.Positivity
import EthosContracts.Soroban
import EthosContracts.Lib.Replay

namespace EthosContracts.InsurancePool

open Lib Soroban Function
open TtlVault (Address maxU64 saturatingAdd InI128)

/-! ### Storage -/

def secondsPerYear : Int := 365 * 86400
def bpsDenominator : Int := 10000
def maxPremiumRateBps : Nat := 10000

inductive InsuranceError
  | alreadyInitialized
  | notInitialized
  | invalidAmount
  | invalidDuration
  | invalidRate
  | coverageExists
  | coverageNotFound
  | notCoverageOwner
  | coverageExpired
  | coverageExhausted
  | claimNotFound
  | claimNotPending
  | notAdmin
deriving DecidableEq

structure Coverage where
  vaultId : Nat
  owner : Address
  /-- The limit when purchased. -/
  limit : Int
  /-- What is still payable. -/
  remaining : Int
  /-- What undecided claims ask for. -/
  pending : Int
  premiumPaid : Int
  startsAt : Nat
  expiresAt : Nat
deriving DecidableEq

inductive ClaimStatus
  | pending
  | paid
  | partiallyPaid
  | rejected
deriving DecidableEq

structure Claim where
  id : Nat
  vaultId : Nat
  owner : Address
  requested : Int
  paid : Int
  status : ClaimStatus
  filedAt : Nat
deriving DecidableEq

/-- The keys of `DataKey`, with a missing reserve read as `0` and a missing counter as `1`. -/
structure PoolState where
  admin : Option Address := none
  token : Option Address := none
  premiumRateBps : Option Nat := none
  reserve : Int := 0
  nextClaimId : Nat := 1
  coverages : Nat → Option Coverage := fun _ => none
  claims : Nat → Option Claim := fun _ => none
  ledger : Ledger Address Address := fun _ _ => 0

abbrev PoolTx (α : Type) : Type := Tx (Halt InsuranceError) PoolState α

variable (env : Caller) (admin : Address)

/-! ### Helpers -/

def requireAdmin : PoolTx Unit := do
  let stored ← read PoolState.admin
  let current ← found stored .notInitialized
  require (current = admin) .notAdmin
  requireAuth env admin

/-- The premium, rounded up. -/
def premiumFor (coverageAmount : Int) (durationSecs : Nat) : PoolTx Int := do
  let stored ← read PoolState.premiumRateBps
  let rate ← found stored .notInitialized
  let yearly ← checked .invalidAmount (coverageAmount * rate)
  let numerator ← checked .invalidAmount (yearly * durationSecs)
  let denominator := bpsDenominator * secondsPerYear
  let rounded ← checked .invalidAmount (numerator + (denominator - 1))
  pure (rounded.tdiv denominator)

def tokenAddress : PoolTx Address := do
  let stored ← read PoolState.token
  found stored .notInitialized

def transfer (token sender receiver : Address) (amount : Int) : PoolTx Unit := do
  let ledger ← read PoolState.ledger
  let after ← expect (ledger.transfer token sender receiver amount) .transferFailed
  write fun s => { s with ledger := after }

def pullTokens (sender : Address) (amount : Int) : PoolTx Unit := do
  let token ← tokenAddress
  transfer token sender env.self amount

def pushTokens (receiver : Address) (amount : Int) : PoolTx Unit := do
  let token ← tokenAddress
  transfer token env.self receiver amount

def addReserve (amount : Int) : PoolTx Unit := do
  let reserve ← read PoolState.reserve
  let next ← checked .invalidAmount (reserve + amount)
  write fun s => { s with reserve := next }

def subReserve (amount : Int) : PoolTx Unit := do
  let reserve ← read PoolState.reserve
  let next ← signed (reserve - amount)
  write fun s => { s with reserve := next }

/-- A premium of nothing moves no tokens. -/
def collectPremium (owner : Address) (premium : Int) : PoolTx Unit :=
  if 0 < premium then do
    pullTokens env owner premium
    addReserve premium
  else pure ()

/-- A payout of nothing moves no tokens. -/
def payOut (owner : Address) (payout : Int) : PoolTx Unit :=
  if 0 < payout then do
    pushTokens env owner payout
    subReserve payout
  else pure ()

def takeClaimId : PoolTx Nat := do
  let id ← read PoolState.nextClaimId
  let next ← bounded maxU64 (id + 1)
  write fun s => { s with nextClaimId := next }
  pure id

def writeCoverage (id : Nat) (coverage : Coverage) : PoolTx Unit :=
  write fun s => { s with coverages := update s.coverages id (some coverage) }

def writeClaim (claimId : Nat) (claim : Claim) : PoolTx Unit :=
  write fun s => { s with claims := update s.claims claimId (some claim) }

/-! ### Entry points -/

def initializeContract (token : Address) (premiumRateBps : Nat) : PoolTx Unit := do
  let stored ← read PoolState.admin
  require (stored = none) .alreadyInitialized
  require (premiumRateBps ≤ maxPremiumRateBps) .invalidRate
  requireAuth env admin
  write fun s => { s with
    admin := some admin
    token := some token
    premiumRateBps := some premiumRateBps
    reserve := 0
    nextClaimId := 1 }

def setPremiumRate (premiumRateBps : Nat) : PoolTx Unit := do
  requireAdmin env admin
  require (premiumRateBps ≤ maxPremiumRateBps) .invalidRate
  write fun s => { s with premiumRateBps := some premiumRateBps }

def fundReserve (funder : Address) (amount : Int) : PoolTx Unit := do
  requireAuth env funder
  require (0 < amount) .invalidAmount
  pullTokens env funder amount
  addReserve amount

/-- An earlier coverage is replaced only after it expired and with nothing pending. -/
def purchaseCoverage (owner : Address) (id : Nat) (coverageAmount : Int) (durationSecs : Nat) :
    PoolTx Int := do
  requireAuth env owner
  require (0 < coverageAmount) .invalidAmount
  require (durationSecs ≠ 0) .invalidDuration
  let existing ← read (·.coverages id)
  require (∀ coverage ∈ existing, ¬ (env.now < coverage.expiresAt ∨ 0 < coverage.pending))
    .coverageExists
  let premium ← premiumFor coverageAmount durationSecs
  collectPremium env owner premium
  writeCoverage id
    { vaultId := id, owner := owner, limit := coverageAmount, remaining := coverageAmount,
      pending := 0, premiumPaid := premium, startsAt := env.now,
      expiresAt := saturatingAdd env.now durationSecs }
  pure premium

/-- The request is capped at what is available. -/
def fileClaim (owner : Address) (vaultId : Nat) (lossAmount : Int) : PoolTx Nat := do
  requireAuth env owner
  require (0 < lossAmount) .invalidAmount
  let stored ← read (·.coverages vaultId)
  let coverage ← found stored .coverageNotFound
  require (coverage.owner = owner) .notCoverageOwner
  require (env.now ≤ coverage.expiresAt) .coverageExpired
  let available ← signed (coverage.remaining - coverage.pending)
  require (0 < available) .coverageExhausted
  let requested := min lossAmount available
  let pending ← signed (coverage.pending + requested)
  writeCoverage vaultId { coverage with pending := pending }
  let id ← takeClaimId
  writeClaim id
    { id := id, vaultId := vaultId, owner := owner, requested := requested, paid := 0,
      status := .pending, filedAt := env.now }
  pure id

/-- An approved claim is paid out of the reserve, as far as it goes. -/
def processClaim (claimId : Nat) (approve : Bool) : PoolTx Int := do
  requireAdmin env admin
  let storedClaim ← read (·.claims claimId)
  let claim ← found storedClaim .claimNotFound
  require (claim.status = .pending) .claimNotPending
  let storedCoverage ← read (·.coverages claim.vaultId)
  let coverage ← found storedCoverage .coverageNotFound
  let pending ← signed (coverage.pending - claim.requested)
  if approve then do
    let reserve ← read PoolState.reserve
    let payout := min claim.requested reserve
    payOut env claim.owner payout
    let remaining ← signed (coverage.remaining - payout)
    writeCoverage claim.vaultId { coverage with pending := pending, remaining := remaining }
    writeClaim claimId { claim with
      paid := payout
      status := if payout = claim.requested then .paid else .partiallyPaid }
    pure payout
  else do
    writeCoverage claim.vaultId { coverage with pending := pending }
    writeClaim claimId { claim with status := .rejected }
    pure 0

/-! ### Runs -/

inductive PoolCall
  | initializeContract (admin token : Address) (premiumRateBps : Nat)
  | setPremiumRate (admin : Address) (premiumRateBps : Nat)
  | fundReserve (funder : Address) (amount : Int)
  | purchaseCoverage (owner : Address) (id : Nat) (coverageAmount : Int) (durationSecs : Nat)
  | fileClaim (owner : Address) (id : Nat) (lossAmount : Int)
  | processClaim (admin : Address) (claimId : Nat) (approve : Bool)
  /-- A transfer between two other holders, which the pool has no part in. -/
  | elsewhere (token sender receiver : Address) (amount : Int)
deriving DecidableEq

structure PoolInput where
  env : Caller
  call : PoolCall

def execPool (input : PoolInput) : PoolTx Unit :=
  match input.call with
  | .initializeContract a token b => initializeContract input.env a token b
  | .setPremiumRate a b => setPremiumRate input.env a b
  | .fundReserve a amount => fundReserve input.env a amount
  | .purchaseCoverage a id b c => do
    let _ ← purchaseCoverage input.env a id b c
    pure ()
  | .fileClaim a id b => do
    let _ ← fileClaim input.env a id b
    pure ()
  | .processClaim a b c => do
    let _ ← processClaim input.env a b c
    pure ()
  | .elsewhere token sender receiver amount => do
    ensure (sender ≠ input.env.self ∧ receiver ≠ input.env.self) .unauthorized
    transfer token sender receiver amount

abbrev PoolEvent : Type := Event PoolState PoolInput

/-- A call that goes through. -/
def poolStep (pool : Address) (s : PoolState) (input : PoolInput) (t : PoolState) : Prop :=
  input.env.self = pool ∧ execPool input s = .ok ((), t)

/-- Runs of the entry points by any parties, with transfers between other holders in between. -/
abbrev PoolRun (pool : Address) (ledger : Ledger Address Address) :
    List PoolEvent → PoolState → Prop :=
  Run (poolStep pool) { ledger := ledger }

/-! ### What one call does -/

/-- **Money came in or went out**: the reserve and the holdings in the pool's token change alike. -/
inductive Cash (pool : Address) (s : PoolState) (change : Int) : PoolState → Prop
  | moved (ledger) (holdings : ∀ token, ledger token pool =
        s.ledger token pool + if s.token = some token then change else 0) :
      Cash pool s change { s with ledger := ledger, reserve := s.reserve + change }

def PoolState.booked (s : PoolState) (coverage : Coverage) (claimId : Nat) (claim : Claim) :
    PoolState :=
  { s with
    coverages := update s.coverages claim.vaultId (some coverage)
    claims := update s.claims claimId (some claim) }

/-- **What a call does**, entry point by entry point. -/
inductive PoolStep (pool : Address) (s : PoolState) : PoolCall → PoolState → Prop
  | started {admin token rate} (blank : s.admin = none) :
      PoolStep pool s (.initializeContract admin token rate)
        { s with
          admin := some admin
          token := some token
          premiumRateBps := some rate
          reserve := 0
          nextClaimId := 1 }
  | rated {admin rate} (ready : s.admin.isSome) :
      PoolStep pool s (.setPremiumRate admin rate) { s with premiumRateBps := some rate }
  | funded {funder amount t} (ready : s.token.isSome) (pos : 0 < amount)
      (cash : Cash pool s amount t) : PoolStep pool s (.fundReserve funder amount) t
  | bought {owner id durationSecs amount premium t coverage} (ready : s.premiumRateBps.isSome)
      (pos : 0 < amount) (free : ∀ old, s.coverages id = some old → old.pending ≤ 0)
      (charged : 0 ≤ premium) (cash : Cash pool s premium t)
      (new : coverage.limit = amount ∧ coverage.remaining = amount ∧ coverage.pending = 0) :
      PoolStep pool s (.purchaseCoverage owner id amount durationSecs)
        { t with coverages := update s.coverages id (some coverage) }
  | filed {owner id loss coverage} (claim) (held : s.coverages id = some coverage)
      (new : claim.vaultId = id ∧ claim.owner ≠ pool ∧ claim.paid = 0 ∧
        claim.status = .pending) (pos : 0 < claim.requested)
      (fits : claim.requested ≤ coverage.remaining - coverage.pending) :
      PoolStep pool s (.fileClaim owner id loss)
        { s.booked { coverage with pending := coverage.pending + claim.requested }
            s.nextClaimId claim with
          nextClaimId := s.nextClaimId + 1 }
  | rejected {admin claimId claim coverage} (stored : s.claims claimId = some claim)
      (undecided : claim.status = .pending) (held : s.coverages claim.vaultId = some coverage) :
      PoolStep pool s (.processClaim admin claimId false)
        (s.booked { coverage with pending := coverage.pending - claim.requested } claimId
          { claim with status := .rejected })
  | approved {admin claimId claim coverage payout status t} (stored : s.claims claimId = some claim)
      (undecided : claim.status = .pending) (held : s.coverages claim.vaultId = some coverage)
      (capped : payout = min claim.requested s.reserve) (decided : status ≠ .pending)
      (cash : claim.owner ≠ pool → Cash pool s (-max payout 0) t) :
      PoolStep pool s (.processClaim admin claimId true)
        (t.booked { coverage with
          pending := coverage.pending - claim.requested
          remaining := coverage.remaining - payout } claimId
            { claim with paid := payout, status := status })
  | elsewhere {token sender receiver amount t} (cash : Cash pool s 0 t) :
      PoolStep pool s (.elsewhere token sender receiver amount) t

section Rules

variable {env : Caller} {s : PoolState} {owner : Address}

@[simp] theorem wp_pullTokens (sender : Address) (amount : Int) (Q : Unit → PoolState → Prop) :
    (pullTokens env sender amount).wp s Q ↔ ∀ token, s.token = some token →
      ∀ after, s.ledger.transfer token sender env.self amount = some after →
        Q () { s with ledger := after } := by
  simp only [pullTokens, tokenAddress, transfer, wp_core, wp_rules]

@[simp] theorem wp_pushTokens (receiver : Address) (amount : Int) (Q : Unit → PoolState → Prop) :
    (pushTokens env receiver amount).wp s Q ↔ ∀ token, s.token = some token →
      ∀ after, s.ledger.transfer token env.self receiver amount = some after →
        Q () { s with ledger := after } := by
  simp only [pushTokens, tokenAddress, transfer, wp_core, wp_rules]

@[simp] theorem wp_requireAdmin (Q : Unit → PoolState → Prop) : (requireAdmin env admin).wp s Q ↔
    (s.admin = some admin → admin ≠ env.self ∧ admin ∈ env.signers → Q () s) := by
  simp only [requireAdmin, wp_core, wp_rules]
  exact ⟨fun all set auth => all admin set rfl auth, fun one _ set same auth =>
    one (same ▸ set) auth⟩

variable {pool token : Address} {amount : Int} {after : Ledger Address Address}

theorem Cash.of_holdings {ledger : Ledger Address Address}
    (same : ∀ token, ledger token pool = s.ledger token pool) :
    Cash pool s 0 { s with ledger := ledger } := by
  have moved : Cash pool s 0 { s with ledger := ledger, reserve := s.reserve + 0 } :=
    .moved ledger (by simpa using same)
  rwa [add_zero] at moved

theorem cash_in {sender : Address} (set : s.token = some token) (other : sender ≠ pool)
    (moved : s.ledger.transfer token sender pool amount = some after) :
    Cash pool s amount { s with ledger := after, reserve := s.reserve + amount } := by
  refine .moved after fun any => ?_
  rw [set]
  by_cases same : token = any
  · subst same
    rw [if_pos rfl]
    exact Ledger.transfer_receiver moved other.symm
  · rw [if_neg (fun equal => same (Option.some.inj equal)), add_zero]
    exact Ledger.transfer_frame moved (Ne.symm same) pool

theorem cash_out {receiver : Address} (set : s.token = some token) (other : receiver ≠ pool)
    (moved : s.ledger.transfer token pool receiver amount = some after) :
    Cash pool s (-amount) { s with ledger := after, reserve := s.reserve - amount } := by
  refine .moved after fun any => ?_
  rw [set]
  by_cases same : token = any
  · subst same
    rw [if_pos rfl]
    exact Ledger.transfer_sender moved other
  · rw [if_neg (fun equal => same (Option.some.inj equal)), add_zero]
    exact Ledger.transfer_frame moved (Ne.symm same) pool

theorem collectPremium_wp {premium : Int} (charged : 0 ≤ premium) (other : owner ≠ env.self) :
    (collectPremium env owner premium).wp s fun _ t => Cash env.self s premium t := by
  simp only [collectPremium, addReserve, wp_core, wp_pullTokens, wp_rules]
  refine ⟨fun _ token set after moved _ => cash_in set other moved, fun free => ?_⟩
  obtain rfl : premium = 0 := Int.le_antisymm (Int.not_lt.mp free) charged
  exact .of_holdings fun _ => rfl

theorem payOut_wp (payout : Int) : (payOut env owner payout).wp s fun _ t => owner ≠ env.self →
      Cash env.self s (-max payout 0) t := by
  simp only [payOut, subReserve, wp_core, wp_pushTokens, wp_rules]
  constructor
  · intro some token set after moved _ other
    rw [max_eq_left some.le]
    exact cash_out set other moved
  · intro nothing _
    rw [max_eq_right (Int.not_lt.mp nothing)]
    exact .of_holdings fun _ => rfl

theorem premiumFor_wp (coverageAmount : Int) (durationSecs : Nat) (pos : 0 < coverageAmount) :
    (premiumFor coverageAmount durationSecs).wp s fun premium t =>
      t = s ∧ 0 ≤ premium ∧ s.premiumRateBps.isSome := by
  simp only [premiumFor, wp_core, wp_rules]
  intro rate set _ _ _
  refine ⟨trivial, Int.tdiv_nonneg ?_ (by decide), by rw [set]; rfl⟩
  have numerator : 0 ≤ coverageAmount * rate * durationSecs := by positivity
  have denominator : 0 ≤ bpsDenominator * secondsPerYear - 1 := by decide
  exact Int.add_nonneg numerator denominator

@[simp] theorem fundReserve_step (funder : Address) (amount : Int) :
    (fundReserve env funder amount).wp s fun _ t =>
      PoolStep env.self s (.fundReserve funder amount) t := by
  simp only [fundReserve, addReserve, wp_core, wp_rules, wp_pullTokens]
  intro auth pos token set after moved _
  exact .funded (by rw [set]; rfl) pos (cash_in set auth.1 moved)

@[simp] theorem purchaseCoverage_step (id : Nat) (coverageAmount : Int) (durationSecs : Nat) :
    (purchaseCoverage env owner id coverageAmount durationSecs).wp s fun _ t =>
      PoolStep env.self s (.purchaseCoverage owner id coverageAmount durationSecs) t := by
  simp only [purchaseCoverage, writeCoverage, wp_core, wp_rules]
  intro auth pos _ free
  refine (premiumFor_wp coverageAmount durationSecs pos).mono ?_
  rintro premium r ⟨rfl, charged, ready⟩
  refine (collectPremium_wp charged auth.1).mono fun _ t cash => ?_
  have same : t.coverages = r.coverages := by
    cases cash
    rfl
  rw [same]
  refine .bought ready pos (fun old stored => ?_) charged cash ⟨rfl, rfl, rfl⟩
  exact Int.not_lt.mp fun some => free old stored (.inr some)

@[simp] theorem fileClaim_step (id : Nat) (lossAmount : Int) :
    (fileClaim env owner id lossAmount).wp s fun _ t =>
      PoolStep env.self s (.fileClaim owner id lossAmount) t := by
  simp only [fileClaim, writeCoverage, writeClaim, takeClaimId, wp_core, wp_rules]
  intro auth pos coverage held _ _ _ available _ _
  exact .filed
    ⟨s.nextClaimId, id, owner, min lossAmount (coverage.remaining - coverage.pending), 0,
      .pending, env.now⟩
    held ⟨rfl, auth.1, rfl, rfl⟩ (lt_min pos available) (min_le_right _ _)

@[simp] theorem processClaim_step (claimId : Nat) (approve : Bool) :
    (processClaim env admin claimId approve).wp s fun _ t => PoolStep env.self s
    (.processClaim admin claimId approve) t := by
  simp only [processClaim, writeCoverage, writeClaim, wp_core, wp_requireAdmin, wp_rules]
  intro _ _ claim stored undecided coverage held _
  constructor
  · rintro rfl
    refine (payOut_wp _).mono fun _ t cash _ => ?_
    refine .approved stored undecided held rfl ?_ cash
    split <;> simp
  · intro denied
    obtain rfl := Bool.eq_false_iff.mpr denied
    exact .rejected stored undecided held

theorem execPool_step {input : PoolInput} :
    (execPool input).wp s fun _ t => PoolStep input.env.self s input.call t := by
  obtain ⟨env, call⟩ := input
  unfold execPool
  cases call with
  | initializeContract =>
    simp only [initializeContract, wp_core, wp_rules]
    exact fun blank _ _ => .started blank
  | setPremiumRate =>
    simp only [setPremiumRate, wp_core, wp_requireAdmin, wp_rules]
    exact fun set _ _ => .rated (by rw [set]; rfl)
  | elsewhere =>
    simp only [transfer, wp_core]
    rintro ⟨notSender, notReceiver⟩ after moved
    exact .elsewhere (.of_holdings (Ledger.transfer_others moved notSender.symm notReceiver.symm))
  | _ => simp

end Rules

end EthosContracts.InsurancePool
