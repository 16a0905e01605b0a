/-
**The lending pools of `lending.rs`.**

Per-token pools, the lenders' shares in them and the loans out of them, with the functions as the
source computes them. Collateral is posted in the pool's own token. All money is kept by the
contract itself, so a pool's `cash` and the posted collateral are records about one holding.

`checked_*` arithmetic fails with `BalanceOverflow`; plain arithmetic traps when it overflows.
-/

import EthosContracts.TtlVault.State
import EthosContracts.Lib.Run

namespace EthosContracts.TtlVault.Lending

open Lib Function

/-! ### Storage -/

def secondsPerYear : Nat := 31536000

def lendingBpsDenominator : Int := 10000

def maxInterestBps : Nat := 10000

def minCollateralBpsFloor : Nat := 10000

/-- A pool of one token. -/
structure LendingPool where
  admin : Address
  token : Address
  /-- Tokens of the pool that are not lent out. -/
  cash : Int
  /-- The principal of all active loans. -/
  totalBorrowed : Int
  totalShares : Int
  interestBps : Nat
  minCollateralBps : Nat
deriving DecidableEq

inductive LoanStatus
  | active
  | repaid
  | defaulted
deriving DecidableEq

/-- A loan out of a pool, with its collateral. -/
structure Loan where
  id : Nat
  borrower : Address
  token : Address
  principal : Int
  collateral : Int
  /-- The rate at origination. -/
  interestBps : Nat
  startedAt : Nat
  dueAt : Nat
  status : LoanStatus
deriving DecidableEq

/-- The keys of `LendingKey`, with a missing position read as `0`. -/
structure LendingState where
  pools : Address → Option LendingPool := fun _ => none
  positions : Address → Address → Int := fun _ _ => 0
  loans : Nat → Option Loan := fun _ => none
  loanCounter : Nat := 0
  ledger : Ledger Address Address := fun _ _ => 0

abbrev LendingTx (α : Type) : Type := Tx Failure LendingState α

variable (env : Env) (pool : LendingPool) (loanId : Nat)

/-! ### Helpers -/

def requireAuth (address : Address) : LendingTx Unit :=
  ensure (address ≠ env.self ∧ address ∈ env.signers) .unauthorized

def transfer (token sender receiver : Address) (amount : Int) : LendingTx Unit := do
  let ledger ← read LendingState.ledger
  let after ← expect (ledger.transfer token sender receiver amount) .transferFailed
  write fun s => { s with ledger := after }

def loadPool (token : Address) : LendingTx LendingPool := do
  let pool ← read (·.pools token)
  expect pool (.error .poolNotFound)

/-- `save_pool`: a pool is stored under the token it names. -/
def savePool : LendingTx Unit :=
  write fun s => { s with pools := update s.pools pool.token (some pool) }

def loadLoan : LendingTx Loan := do
  let loan ← read (·.loans loanId)
  expect loan (.error .loanNotFound)

/-- `save_loan`: a loan is stored under the number it carries. -/
def saveLoan (loan : Loan) : LendingTx Unit :=
  write fun s => { s with loans := update s.loans loan.id (some loan) }

def positionOf (token lender : Address) : LendingTx Int := read (·.positions token lender)

def savePosition (token lender : Address) (shares : Int) : LendingTx Unit :=
  write fun s => { s with
    positions := update s.positions token (update (s.positions token) lender shares) }

def checked (value : Int) : LendingTx Int := do
  ensure (InI128 value) (.error .balanceOverflow)
  pure value

def plain (value : Int) : LendingTx Int := do
  ensure (InI128 value) .overflow
  pure value

def plainDiv (a b : Int) : LendingTx Int := do
  ensure (b ≠ 0) .divisionByZero
  plain (a.tdiv b)

/-- Idle cash plus the principal lent out. -/
def LendingPool.assets : Int := pool.cash + pool.totalBorrowed

def poolAssets : LendingTx Int := checked pool.assets

/-! ### Pool management -/

def validateConfig (interestBps minCollateralBps : Nat) : LendingTx Unit :=
  ensure (¬ (maxInterestBps < interestBps ∨ minCollateralBps < minCollateralBpsFloor))
    (.error .invalidLendingConfig)

def createPool (admin token : Address) (interestBps minCollateralBps : Nat) : LendingTx Unit := do
  requireAuth env admin
  validateConfig interestBps minCollateralBps
  let existing ← read (·.pools token)
  ensure (existing = none) (.error .poolAlreadyExists)
  savePool ⟨admin, token, 0, 0, 0, interestBps, minCollateralBps⟩

def setPoolTerms (admin token : Address) (interestBps minCollateralBps : Nat) : LendingTx Unit := do
  requireAuth env admin
  validateConfig interestBps minCollateralBps
  let pool ← loadPool token
  ensure (pool.admin = admin) (.error .notAdmin)
  savePool { pool with interestBps := interestBps, minCollateralBps := minCollateralBps }

/-! ### Liquidity -/

/-- The shares that a deposit mints; the first one mints one for one. -/
def sharesFor (amount : Int) : LendingTx Int :=
  if pool.totalShares = 0 then
    pure amount
  else do
    let assets ← poolAssets pool
    ensure (assets ≠ 0) (.error .invalidAmount)
    let scaled ← checked (amount * pool.totalShares)
    plainDiv scaled assets

def depositLiquidity (token lender : Address) (amount : Int) : LendingTx Int := do
  requireAuth env lender
  ensure (0 < amount) (.error .invalidAmount)
  let pool ← loadPool token
  let shares ← sharesFor pool amount
  ensure (0 < shares) (.error .invalidAmount)
  transfer token lender env.self amount
  let cash ← checked (pool.cash + amount)
  let totalShares ← checked (pool.totalShares + shares)
  savePool { pool with cash := cash, totalShares := totalShares }
  let position ← positionOf token lender
  let held ← checked (position + shares)
  savePosition token lender held
  pure shares

def withdrawLiquidity (token lender : Address) (shares : Int) : LendingTx Int := do
  requireAuth env lender
  ensure (0 < shares) (.error .invalidAmount)
  let held ← positionOf token lender
  ensure (shares ≤ held) (.error .insufficientShares)
  let pool ← loadPool token
  let assets ← poolAssets pool
  let scaled ← checked (shares * assets)
  let amount ← plainDiv scaled pool.totalShares
  ensure (amount ≤ pool.cash) (.error .insufficientPoolLiquidity)
  let cash ← plain (pool.cash - amount)
  let totalShares ← plain (pool.totalShares - shares)
  savePool { pool with cash := cash, totalShares := totalShares }
  let rest ← plain (held - shares)
  savePosition token lender rest
  transfer token env.self lender amount
  pure amount

/-! ### Loans -/

def borrow (token borrower : Address) (collateral amount : Int) (durationSecs : Nat) : LendingTx Nat
    := do
  requireAuth env borrower
  ensure (0 < amount ∧ 0 < collateral) (.error .invalidAmount)
  ensure (durationSecs ≠ 0) (.error .invalidLendingConfig)
  let pool ← loadPool token
  ensure (amount ≤ pool.cash) (.error .insufficientPoolLiquidity)
  let collateralScaled ← checked (collateral * lendingBpsDenominator)
  let requiredScaled ← checked (amount * pool.minCollateralBps)
  ensure (requiredScaled ≤ collateralScaled) (.error .insufficientCollateral)
  transfer token borrower env.self collateral
  transfer token env.self borrower amount
  let cash ← plain (pool.cash - amount)
  let totalBorrowed ← checked (pool.totalBorrowed + amount)
  savePool { pool with cash := cash, totalBorrowed := totalBorrowed }
  let counter ← read LendingState.loanCounter
  ensure (counter + 1 ≤ maxU64) .overflow
  write fun s => { s with loanCounter := counter + 1 }
  saveLoan
    { id := counter + 1, borrower := borrower, token := token, principal := amount,
      collateral := collateral, interestBps := pool.interestBps, startedAt := env.now,
      dueAt := saturatingAdd env.now durationSecs, status := .active }
  pure (counter + 1)

/-- `accrued_interest`: simple interest up to now. -/
def accruedInterest (loan : Loan) : LendingTx Int := do
  let yearly ← checked (loan.principal * loan.interestBps)
  let numerator ← checked (yearly * ((env.now - loan.startedAt : Nat) : Int))
  plainDiv numerator (lendingBpsDenominator * secondsPerYear)

def repayLoan (borrower : Address) : LendingTx Int := do
  requireAuth env borrower
  let loan ← loadLoan loanId
  ensure (loan.borrower = borrower) (.error .notOwner)
  ensure (loan.status = .active) (.error .loanNotActive)
  let interest ← accruedInterest env loan
  let owed ← checked (loan.principal + interest)
  transfer loan.token borrower env.self owed
  transfer loan.token env.self borrower loan.collateral
  let pool ← loadPool loan.token
  let cash ← checked (pool.cash + owed)
  let totalBorrowed ← plain (pool.totalBorrowed - loan.principal)
  savePool { pool with cash := cash, totalBorrowed := totalBorrowed }
  saveLoan { loan with status := .repaid }
  pure owed

def liquidateLoan (caller : Address) : LendingTx Int := do
  requireAuth env caller
  let loan ← loadLoan loanId
  ensure (loan.status = .active) (.error .loanNotActive)
  ensure (loan.dueAt < env.now) (.error .loanNotDue)
  let pool ← loadPool loan.token
  let totalBorrowed ← plain (pool.totalBorrowed - loan.principal)
  let cash ← checked (pool.cash + loan.collateral)
  savePool { pool with totalBorrowed := totalBorrowed, cash := cash }
  saveLoan { loan with status := .defaulted }
  pure loan.collateral

/-! ### Runs -/

inductive LendingCall
  | createPool (admin token : Address) (interestBps minCollateralBps : Nat)
  | setPoolTerms (admin token : Address) (interestBps minCollateralBps : Nat)
  | depositLiquidity (token lender : Address) (amount : Int)
  | withdrawLiquidity (token lender : Address) (shares : Int)
  | borrow (token borrower : Address) (collateral amount : Int) (durationSecs : Nat)
  | repayLoan (loanId : Nat) (borrower : Address)
  | liquidateLoan (loanId : Nat) (caller : Address)
  /-- A transfer between two other holders, which the contract has no part in. -/
  | elsewhere (token sender receiver : Address) (amount : Int)

def exec : LendingCall → LendingTx Unit
  | .createPool a token b c => createPool env a token b c
  | .setPoolTerms a token b c => setPoolTerms env a token b c
  | .depositLiquidity token a amount => do
    let _ ← depositLiquidity env token a amount
    pure ()
  | .withdrawLiquidity token a b => do
    let _ ← withdrawLiquidity env token a b
    pure ()
  | .borrow token a b amount c => do
    let _ ← borrow env token a b amount c
    pure ()
  | .repayLoan a b => do
    let _ ← repayLoan env a b
    pure ()
  | .liquidateLoan a caller => do
    let _ ← liquidateLoan env a caller
    pure ()
  | .elsewhere token sender receiver amount => do
    ensure (sender ≠ env.self ∧ receiver ≠ env.self) .unauthorized
    transfer token sender receiver amount

structure LendingInput where
  env : Env
  call : LendingCall

def step (self : Address) (s : LendingState) (input : LendingInput) (t : LendingState) : Prop :=
  input.env.self = self ∧ exec input.env input.call s = .ok ((), t)

/-- Runs of the calls by any parties, with transfers between other holders in between. -/
abbrev LendingRun (self : Address) (start : LendingState) :
    List (Event LendingState LendingInput) → LendingState → Prop :=
  Run (step self) start

/-- No pool, no position and no loan yet; the ledger is arbitrary. -/
structure LendingState.Blank (s : LendingState) : Prop where
  pools : ∀ token, s.pools token = none
  positions : ∀ token lender, s.positions token lender = 0
  loans : ∀ id, s.loans id = none
  counter : s.loanCounter = 0

/-! ### What a successful call does -/

@[simp] theorem wp_rules {s : LendingState} :
    (∀ env address Q, Tx.wp (requireAuth env address) s Q ↔
      (address ≠ env.self ∧ address ∈ env.signers → Q () s)) ∧
    (∀ token sender receiver amount Q, Tx.wp (transfer token sender receiver amount) s Q ↔
      ∀ after, s.ledger.transfer token sender receiver amount = some after →
        Q () { s with ledger := after }) ∧
    (∀ token Q, Tx.wp (loadPool token) s Q ↔ ∀ pool, s.pools token = some pool → Q pool s) ∧
    (∀ loanId Q, Tx.wp (loadLoan loanId) s Q ↔ ∀ loan, s.loans loanId = some loan → Q loan s) ∧
    (∀ value Q, Tx.wp (checked value) s Q ↔ (InI128 value → Q value s)) ∧
    (∀ value Q, Tx.wp (plain value) s Q ↔ (InI128 value → Q value s)) ∧
    ∀ a b Q, Tx.wp (plainDiv a b) s Q ↔ (b ≠ 0 → InI128 (a.tdiv b) → Q (a.tdiv b) s) := by
  simp only [requireAuth, transfer, loadPool, loadLoan, checked, plain, plainDiv, wp_core,
    implies_true, and_self]

section Calls

variable {env : Env} {s : LendingState} {token lender borrower : Address}

theorem sharesFor_wp (amount : Int) :
    (sharesFor pool amount).wp s fun shares t => t = s ∧ (pool.totalShares = 0 ∧ shares = amount ∨
        pool.totalShares ≠ 0 ∧ pool.assets ≠ 0 ∧
          shares = (amount * pool.totalShares).tdiv pool.assets) := by
  simp only [sharesFor, poolAssets, wp_core, wp_rules]
  constructor
  · intro first
    exact ⟨trivial, .inl ⟨first, trivial⟩⟩
  · intro later _ funded _ _ _
    exact ⟨trivial, .inr ⟨later, funded, trivial⟩⟩

def LendingState.withLiquidity (s : LendingState) (token lender : Address) (pool : LendingPool)
    (shares : Int) (ledger : Ledger Address Address) : LendingState :=
  { s with
    ledger := ledger
    pools := update s.pools pool.token (some pool)
    positions := update s.positions token (update (s.positions token) lender shares) }

def LendingState.withLoan (s : LendingState) (pool : LendingPool) (loan : Loan) (counter : Nat)
    (ledger : Ledger Address Address) : LendingState :=
  { s with
    ledger := ledger
    pools := update s.pools pool.token (some pool)
    loanCounter := counter
    loans := update s.loans loan.id (some loan) }

theorem depositLiquidity_wp (amount : Int) :
    (depositLiquidity env token lender amount).wp s fun shares t =>
      ∃ pool after, lender ≠ env.self ∧ 0 < amount ∧ 0 < shares ∧ s.pools token = some pool ∧
        (pool.totalShares = 0 ∧ shares = amount ∨ pool.totalShares ≠ 0 ∧ pool.assets ≠ 0 ∧
            shares = (amount * pool.totalShares).tdiv pool.assets) ∧
        s.ledger.transfer token lender env.self amount = some after ∧
        t = s.withLiquidity token lender
          { pool with cash := pool.cash + amount, totalShares := pool.totalShares + shares }
          (s.positions token lender + shares) after := by
  simp only [depositLiquidity, savePool, positionOf, savePosition, wp_core, wp_rules]
  rintro ⟨other, -⟩ pos pool found
  refine (sharesFor_wp pool amount).mono ?_
  rintro shares _ ⟨rfl, price⟩ minted after moved - - -
  exact ⟨pool, after, other, pos, minted, found, price, moved, rfl⟩

theorem withdrawLiquidity_wp (shares : Int) :
    (withdrawLiquidity env token lender shares).wp s fun amount t =>
      ∃ pool after, lender ≠ env.self ∧ 0 < shares ∧ shares ≤ s.positions token lender ∧
        s.pools token = some pool ∧ pool.totalShares ≠ 0 ∧
        amount = (shares * pool.assets).tdiv pool.totalShares ∧ amount ≤ pool.cash ∧
        s.ledger.transfer token env.self lender amount = some after ∧
        t = s.withLiquidity token lender
          { pool with cash := pool.cash - amount, totalShares := pool.totalShares - shares }
          (s.positions token lender - shares) after := by
  simp only [withdrawLiquidity, poolAssets, savePool, positionOf, savePosition, wp_core, wp_rules]
  rintro ⟨other, -⟩ pos owned pool found - - issued - liquid - - - after moved
  exact ⟨pool, after, other, pos, owned, found, issued, rfl, liquid, moved, rfl⟩

theorem borrow_wp (collateral amount : Int) (durationSecs : Nat) :
    (borrow env token borrower collateral amount durationSecs).wp s fun id t =>
      ∃ pool posted after, borrower ≠ env.self ∧ 0 < amount ∧ s.pools token = some pool ∧
        amount ≤ pool.cash ∧
        amount * pool.minCollateralBps ≤ collateral * lendingBpsDenominator ∧
        s.ledger.transfer token borrower env.self collateral = some posted ∧
        posted.transfer token env.self borrower amount = some after ∧ id = s.loanCounter + 1 ∧
        t = s.withLoan
          { pool with cash := pool.cash - amount, totalBorrowed := pool.totalBorrowed + amount }
          ⟨id, borrower, token, amount, collateral, pool.interestBps, env.now,
            saturatingAdd env.now durationSecs, .active⟩ id after := by
  simp only [borrow, savePool, saveLoan, wp_core, wp_rules]
  rintro ⟨other, -⟩ ⟨pos, -⟩ - pool found liquid - - covered posted first after second - - -
  exact ⟨pool, posted, after, other, pos, found, liquid, covered, first, second, trivial, rfl⟩

theorem accruedInterest_wp (loan : Loan) (lent : 0 ≤ loan.principal) :
    (accruedInterest env loan).wp s fun interest t => t = s ∧ 0 ≤ interest := by
  simp only [accruedInterest, wp_bind, wp_rules]
  intro _ _ _ _
  refine ⟨trivial, Int.tdiv_nonneg ?_ (by decide)⟩
  exact mul_nonneg (mul_nonneg lent (Int.natCast_nonneg _)) (Int.natCast_nonneg _)

theorem repayLoan_wp
    (lent : ∀ loan, s.loans loanId = some loan → loan.status = .active → 0 ≤ loan.principal) :
    (repayLoan env loanId borrower).wp s fun owed t => ∃ loan pool repaid after, borrower ≠ env.self
    ∧ s.loans loanId = some loan ∧ loan.status = .active ∧ loan.principal ≤ owed ∧ s.ledger.transfer
    loan.token borrower env.self owed = some repaid ∧ repaid.transfer loan.token env.self borrower
    loan.collateral = some after ∧ s.pools loan.token = some pool ∧ t = s.withLoan
    { pool with cash := pool.cash + owed, totalBorrowed := pool.totalBorrowed - loan.principal }
    { loan with status := .repaid } s.loanCounter after := by
  simp only [repayLoan, savePool, saveLoan, wp_core, wp_rules]
  rintro ⟨other, -⟩ loan found - active
  refine (accruedInterest_wp loan (lent loan found active)).mono ?_
  rintro interest _ ⟨rfl, accrued⟩ - repaid first after second pool pooled - -
  exact ⟨loan, pool, repaid, after, other, found, active, by omega, first, second, pooled, rfl⟩

theorem liquidateLoan_wp (caller : Address) :
    (liquidateLoan env loanId caller).wp s fun seized t =>
      ∃ loan pool, s.loans loanId = some loan ∧ loan.status = .active ∧ seized = loan.collateral ∧
        s.pools loan.token = some pool ∧
        t = s.withLoan { pool with
            totalBorrowed := pool.totalBorrowed - loan.principal
            cash := pool.cash + loan.collateral }
          { loan with status := .defaulted } s.loanCounter s.ledger := by
  simp only [liquidateLoan, savePool, saveLoan, wp_core, wp_rules]
  intro _ loan found active _ pool pooled _ _
  exact ⟨loan, pool, found, active, rfl, pooled, rfl⟩

end Calls

end EthosContracts.TtlVault.Lending
