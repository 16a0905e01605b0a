/-
**The accounts of the lending pools add up, and a share never loses value.**
-/

import EthosContracts.Lib.Table
import EthosContracts.Lib.Tally
import EthosContracts.Lib.ProRata
import EthosContracts.TtlVault.Call
import EthosContracts.TtlVault.Lending

namespace EthosContracts.TtlVault.Lending

open Lib Function

/-! ### The accounts -/

/-- An amount of a loan, counted while the loan is active and in one token. -/
def outstanding (token : Address) (amount : Loan → Int) : Option Loan → Int
  | some loan => if loan.token = token ∧ loan.status = .active then amount loan else 0
  | none => 0

def LendingState.activePrincipal (s : LendingState) (token : Address) (id : Nat) : Int :=
  outstanding token Loan.principal (s.loans id)

def LendingState.activeCollateral (s : LendingState) (token : Address) (id : Nat) : Int :=
  outstanding token Loan.collateral (s.loans id)

/-- What a pool has on record. -/
structure Book where
  cash : Int
  borrowed : Int
  shares : Int

def LendingPool.book (pool : LendingPool) : Book :=
  ⟨pool.cash, pool.totalBorrowed, pool.totalShares⟩

/-- The book of a token; without a pool it is empty. -/
def LendingState.book (s : LendingState) (token : Address) : Book :=
  ((s.pools token).map LendingPool.book).getD ⟨0, 0, 0⟩

/-- The records of a pool add up to the positions, the loans and the holdings. -/
structure Balanced (book : Book) (positions : Address → Int) (principal collateral : Nat → Int)
    (holdings : Int) : Prop where
  owned : ∀ lender, 0 ≤ positions lender
  shares : Tally positions book.shares
  borrowed : Tally principal book.borrowed
  held : Tally collateral (holdings - book.cash)
  cash : 0 ≤ book.cash
  empty : book.shares = 0 → book.cash = 0 ∧ book.borrowed = 0

/-- The books of every token balance, a loan is worth no more than its collateral, and a pool
without shares is empty. What `keeper` holds beyond `before` is the pool's cash with the collateral
of its active loans. -/
structure Sound (keeper : Address) (before : Address → Int) (s : LendingState) : Prop where
  terms : ∀ token pool, s.pools token = some pool →
    pool.token = token ∧ minCollateralBpsFloor ≤ pool.minCollateralBps
  balanced : ∀ token, Balanced (s.book token) (s.positions token) (s.activePrincipal token)
    (s.activeCollateral token) (s.ledger token keeper - before token)
  numbered : ∀ id, s.loanCounter < id → s.loans id = none
  secured : ∀ id loan, s.loans id = some loan → loan.id = id ∧
    (loan.status = .active → 0 < loan.principal ∧ loan.principal ≤ loan.collateral)

variable {keeper : Address} {before : Address → Int} {s t : LendingState} {token : Address}
  {pool : LendingPool}

theorem book_of_found (found : s.pools token = some pool) : s.book token = pool.book := by
  rw [LendingState.book, found]
  rfl

theorem book_of_missing (missing : s.pools token = none) : s.book token = ⟨0, 0, 0⟩ := by
  rw [LendingState.book, missing]
  rfl

variable {amount : Loan → Int} {loan : Loan} {id : Nat} {book : Book} {positions : Address → Int}
  {principal collateral : Nat → Int} {holdings shares cash : Int} {lender : Address}
  {after : Ledger Address Address} {new old : LendingPool}

theorem outstanding_of_ne (ne : loan.token ≠ token) : outstanding token amount (some loan) = 0 :=
  if_neg fun both => ne both.1

theorem outstanding_active (active : loan.status = .active) :
    outstanding loan.token amount (some loan) = amount loan :=
  if_pos ⟨rfl, active⟩

theorem outstanding_closed (closed : loan.status ≠ .active) :
    outstanding token amount (some loan) = 0 :=
  if_neg fun both => closed both.2

theorem LendingState.Blank.sound (blank : s.Blank) : Sound keeper (s.ledger · keeper) s := by
  have none (amount : Loan → Int) (token : Address) :
      Tally (fun id => outstanding token amount (s.loans id)) 0 := by
    simp only [blank.loans]
    exact tally_zero
  refine ⟨fun token pool found => ?_, fun token => ?_, fun id _ => blank.loans id,
    fun id loan found => ?_⟩
  · rw [blank.pools token] at found
    cases found
  · have shares : s.positions token = fun _ => 0 := funext (blank.positions token)
    rw [book_of_missing (blank.pools token), shares, Int.sub_self]
    exact ⟨fun _ => le_rfl, tally_zero, none _ token, none _ token, le_rfl, fun _ => ⟨rfl, rfl⟩⟩
  · rw [blank.loans id] at found
    cases found

/-! ### The two kinds of change -/

theorem Sound.principal_nonneg (sound : Sound keeper before s) (token : Address) (id : Nat) :
    0 ≤ s.activePrincipal token id := by
  unfold LendingState.activePrincipal outstanding
  split
  · rename_i loan stored
    split_ifs with counted
    · exact ((sound.secured id loan stored).2 counted.2).1.le
    · exact le_refl 0
  · exact le_refl 0

theorem Sound.principal_le (sound : Sound keeper before s)
    (found : s.loans id = some loan) (active : loan.status = .active)
    (pooled : s.pools loan.token = some pool) : loan.principal ≤ pool.totalBorrowed := by
  have single := (sound.balanced loan.token).borrowed.le_total (sound.principal_nonneg loan.token) id
  rw [book_of_found pooled, LendingState.activePrincipal, found, outstanding_active active]
    at single
  exact single

theorem book_update (updated : t.pools = update s.pools token (some pool))
    (other : Address) : t.book other = if other = token then pool.book else s.book other := by
  unfold LendingState.book
  rw [updated]
  split_ifs with same
  · rw [same, update_self]
    rfl
  · rw [update_of_ne same]

theorem terms_update (sound : Sound keeper before s)
    (updated : t.pools = update s.pools token (some pool)) (key : pool.token = token)
    (floor : minCollateralBpsFloor ≤ pool.minCollateralBps) :
    ∀ other entry, t.pools other = some entry →
      entry.token = other ∧ minCollateralBpsFloor ≤ entry.minCollateralBps := by
  rw [updated]
  exact forall_entries_update (fun other entry _ stored => sound.terms other entry stored)
    ⟨key, floor⟩

theorem Balanced.liquidity
    (balanced : Balanced book positions principal collateral holdings) (lender : Address)
    (owned : 0 ≤ shares) (funded : 0 ≤ cash)
    (empty : book.shares + (shares - positions lender) = 0 → cash = 0 ∧ book.borrowed = 0) :
    Balanced ⟨cash, book.borrowed, book.shares + (shares - positions lender)⟩
      (update positions lender shares) principal collateral
      (holdings + (cash - book.cash)) := by
  refine ⟨fun holder => ?_, balanced.shares.set lender shares, balanced.borrowed, ?_, funded, empty⟩
  · by_cases changed : holder = lender
    · rw [changed, update_self]
      exact owned
    · rw [update_of_ne changed]
      exact balanced.owned holder
  · have same : holdings + (cash - book.cash) - cash = holdings - book.cash := by ring
    rw [same]
    exact balanced.held

theorem Balanced.lend (balanced : Balanced book positions principal collateral holdings)
    (id : Nat) (lent posted : Int) (funded : 0 ≤ cash)
    (empty : book.shares = 0 → cash = 0 ∧ book.borrowed + (lent - principal id) = 0) :
    Balanced ⟨cash, book.borrowed + (lent - principal id), book.shares⟩ positions
      (update principal id lent) (update collateral id posted)
      (holdings + (cash - book.cash) + (posted - collateral id)) := by
  refine ⟨balanced.owned, balanced.shares, balanced.borrowed.set id lent, ?_, funded, empty⟩
  have changed := balanced.held.set id posted
  have same : holdings + (cash - book.cash) + (posted - collateral id) - cash =
      holdings - book.cash + (posted - collateral id) := by ring
  rw [same]
  exact changed

theorem Sound.withLiquidity (sound : Sound keeper before s) {total : Int}
    (found : s.pools token = some pool) (owned : 0 ≤ shares)
    (issued : total = pool.totalShares + (shares - s.positions token lender)) (funded : 0 ≤ cash)
    (empty : total = 0 → cash = 0 ∧ pool.totalBorrowed = 0)
    (moved : after token keeper = s.ledger token keeper + (cash - pool.cash))
    (frame : ∀ other, other ≠ token → after other keeper = s.ledger other keeper) :
    Sound keeper before
      (s.withLiquidity token lender { pool with cash := cash, totalShares := total } shares after) := by
  obtain ⟨key, floor⟩ := sound.terms token pool found
  have updated : (s.withLiquidity token lender { pool with cash := cash, totalShares := total }
      shares after).pools =
      update s.pools token (some { pool with cash := cash, totalShares := total }) := by
    rw [← key]
    rfl
  refine ⟨terms_update sound updated key floor, fun other => ?_, sound.numbered, sound.secured⟩
  rw [book_update updated]
  show Balanced _ (update s.positions token _ other) (s.activePrincipal other)
    (s.activeCollateral other) (after other keeper - before other)
  have balanced := sound.balanced other
  split_ifs with same
  · rw [same, book_of_found found] at balanced
    subst issued
    have changed := balanced.liquidity lender owned funded empty
    rw [same, update_self, moved, add_sub_right_comm]
    exact changed
  · rw [update_of_ne same, frame other same]
    exact balanced

theorem outstanding_update (loan : Loan) (amount : Loan → Int) (token : Address) :
    (fun id => outstanding token amount (update s.loans loan.id (some loan) id)) =
      update (fun id => outstanding token amount (s.loans id)) loan.id
        (outstanding token amount (some loan)) := by
  funext id
  by_cases same : id = loan.id
  · rw [same, update_self, update_self]
  · rw [update_of_ne same, update_of_ne same]

theorem outstanding_elsewhere
    (replaced : ∀ old, s.loans loan.id = some old → old.token = loan.token)
    (ne : token ≠ loan.token) (amount : Loan → Int) :
    (fun id => outstanding token amount (update s.loans loan.id (some loan) id)) =
      fun id => outstanding token amount (s.loans id) := by
  rw [outstanding_update, outstanding_of_ne ne.symm]
  refine update_eq_self_iff.mpr ?_
  cases stored : s.loans loan.id with
  | none => rfl
  | some old =>
    have sameToken := replaced old stored
    rw [outstanding_of_ne (sameToken ▸ ne.symm)]

theorem Sound.withLoan (sound : Sound keeper before s) {counter : Nat}
    {lent : Int} (found : s.pools loan.token = some pool)
    (replaced : ∀ old, s.loans loan.id = some old → old.token = loan.token)
    (secured : loan.status = .active → 0 < loan.principal ∧ loan.principal ≤ loan.collateral)
    (counted : s.loanCounter ≤ counter) (numbered : loan.id ≤ counter)
    (principal : lent = pool.totalBorrowed + (outstanding loan.token Loan.principal (some loan) -
      s.activePrincipal loan.token loan.id))
    (funded : 0 ≤ cash) (empty : pool.totalShares = 0 → cash = 0 ∧ lent = 0)
    (moved : after loan.token keeper = s.ledger loan.token keeper + (cash - pool.cash) +
      (outstanding loan.token Loan.collateral (some loan) - s.activeCollateral loan.token loan.id))
    (frame : ∀ other, other ≠ loan.token → after other keeper = s.ledger other keeper) :
    Sound keeper before
      (s.withLoan { pool with cash := cash, totalBorrowed := lent } loan counter after) := by
  obtain ⟨key, floor⟩ := sound.terms loan.token pool found
  have updated : (s.withLoan { pool with cash := cash, totalBorrowed := lent } loan counter
      after).pools =
      update s.pools loan.token (some { pool with cash := cash, totalBorrowed := lent }) := by
    rw [← key]
    rfl
  refine ⟨terms_update sound updated key floor, fun other => ?_, ?_,
    forall_entries_update (fun id entry _ stored => sound.secured id entry stored) ⟨rfl, secured⟩⟩
  · rw [book_update updated]
    show Balanced _ (s.positions other) (fun id => outstanding other Loan.principal _)
      (fun id => outstanding other Loan.collateral _) (after other keeper - before other)
    have balanced := sound.balanced other
    split_ifs with same
    · rw [same, book_of_found found] at balanced
      subst principal
      have changed := balanced.lend loan.id (outstanding loan.token Loan.principal (some loan))
        (outstanding loan.token Loan.collateral (some loan)) funded empty
      rw [same, moved, add_sub_right_comm, add_sub_right_comm]
      refine (outstanding_update loan Loan.principal loan.token).symm ▸
        (outstanding_update loan Loan.collateral loan.token).symm ▸ ?_
      exact changed
    · rw [frame other same]
      refine (outstanding_elsewhere replaced same Loan.principal).symm ▸
        (outstanding_elsewhere replaced same Loan.collateral).symm ▸ ?_
      exact balanced
  · intro id later
    show update s.loans loan.id (some loan) id = none
    have beyond : counter < id := later
    rw [update_of_ne (by omega)]
    exact sound.numbered id (by omega)

/-! ### The price of a share -/

/-- What one share is worth, as an exact fraction. -/
def LendingPool.price (pool : LendingPool) : ℚ :=
  ((pool.cash + pool.totalBorrowed : Int) : ℚ) / pool.totalShares

/-- Between two states every pool has made a fair exchange of assets for shares. -/
def Exchanged (s t : LendingState) : Prop :=
  ∀ token old new, s.pools token = some old → t.pools token = some new →
    Fair old.assets old.totalShares (new.assets - old.assets) (new.totalShares - old.totalShares)

theorem exchanged_of_same (same : t.pools = s.pools) : Exchanged s t := by
  intro token old new found later
  obtain rfl := Option.mem_unique found (same ▸ later)
  simp [Fair]

theorem exchanged_update (updated : t.pools = update s.pools token (some new))
    (fair : ∀ old, s.pools token = some old → Fair old.assets old.totalShares
      (new.assets - old.assets) (new.totalShares - old.totalShares)) : Exchanged s t := by
  intro other before later stored saved
  rw [updated] at saved
  by_cases here : other = token
  · rw [here, update_self] at saved
    cases saved
    exact fair before (here ▸ stored)
  · rw [update_of_ne here] at saved
    cases stored.symm.trans saved
    simp [Fair]

theorem fair_of_assets_le (issued : 0 ≤ old.totalShares)
    (grown : old.assets ≤ new.assets) (same : new.totalShares = old.totalShares) :
    Fair old.assets old.totalShares (new.assets - old.assets)
      (new.totalShares - old.totalShares) := by
  unfold Fair
  rw [same, Int.sub_self, zero_mul]
  exact mul_nonneg (by omega) issued

section Pools

variable (sound : Sound keeper before s) (found : s.pools token = some pool)
include sound found

theorem Sound.stored : s.pools pool.token = some pool := by
  rw [(sound.terms token pool found).1]
  exact found

theorem Sound.pool_balanced : Balanced pool.book (s.positions token) (s.activePrincipal token)
    (s.activeCollateral token) (s.ledger token keeper - before token) :=
  book_of_found found ▸ sound.balanced token

theorem Sound.cash_nonneg : 0 ≤ pool.cash :=
  (sound.pool_balanced found).cash

theorem Sound.shares_nonneg : 0 ≤ pool.totalShares :=
  (sound.pool_balanced found).shares.nonneg (sound.pool_balanced found).owned

theorem Sound.lent_nonneg : 0 ≤ pool.totalBorrowed :=
  (sound.pool_balanced found).borrowed.nonneg (sound.principal_nonneg token)

theorem Sound.assets_nonneg : 0 ≤ pool.assets :=
  add_nonneg (sound.cash_nonneg found) (sound.lent_nonneg found)

theorem Sound.empty_pool (none : pool.totalShares = 0) : pool.cash = 0 ∧ pool.totalBorrowed = 0 :=
  (sound.pool_balanced found).empty none

theorem Sound.mint_fair {amount shares : Int} (pos : 0 < amount)
    (minted : pool.totalShares = 0 ∧ shares = amount ∨ pool.totalShares ≠ 0 ∧ pool.assets ≠ 0 ∧
        shares = (amount * pool.totalShares).tdiv pool.assets) :
    Fair pool.assets pool.totalShares amount shares := by
  have owned := sound.assets_nonneg found
  rcases minted with ⟨first, rfl⟩ | ⟨-, funded, rfl⟩
  · obtain ⟨cash, lent⟩ := sound.empty_pool found first
    have nothing : pool.assets = 0 := by
      unfold LendingPool.assets
      omega
    unfold Fair
    rw [first, nothing]
  · exact fair_of_floor_shares (by omega) pos.le (sound.shares_nonneg found)

end Pools

/-! ### Every call keeps the accounts -/

/-- The accounts are kept, and every pool has made a fair exchange. -/
def Kept (keeper : Address) (before : Address → Int) (s t : LendingState) : Prop :=
  Sound keeper before t ∧ Exchanged s t

theorem Sound.close (sound : Sound keeper before s) {status : LoanStatus}
    (found : s.loans id = some loan)
    (active : loan.status = .active) (closed : status ≠ .active)
    (pooled : s.pools loan.token = some pool) (covered : pool.cash + loan.principal ≤ cash)
    (moved : after loan.token keeper =
      s.ledger loan.token keeper + (cash - pool.cash) - loan.collateral)
    (frame : ∀ other, other ≠ loan.token → after other keeper = s.ledger other keeper) :
    Kept keeper before s
      (s.withLoan { pool with cash := cash, totalBorrowed := pool.totalBorrowed - loan.principal }
        { loan with status := status } s.loanCounter after) := by
  obtain ⟨number, secured⟩ := sound.secured id loan found
  have pos := (secured active).1
  have funded := sound.cash_nonneg pooled
  have stored : s.loans loan.id = some loan := number.symm ▸ found
  have within : loan.id ≤ s.loanCounter := by
    by_contra beyond
    rw [sound.numbered loan.id (Nat.lt_of_not_le beyond)] at stored
    cases stored
  refine ⟨sound.withLoan pooled (fun old same => ?_) (fun still => absurd still closed)
    (le_refl _) within ?_ (by omega) (fun none => ?_) ?_ frame,
    exchanged_update rfl fun old same => ?_⟩
  · rw [stored] at same
    cases same
    rfl
  · rw [outstanding_closed closed]
    show _ = pool.totalBorrowed + (0 - s.activePrincipal loan.token loan.id)
    rw [LendingState.activePrincipal, stored, outstanding_active active]
    ring
  · have nothing := (sound.empty_pool pooled none).2
    have lent := sound.principal_le found active pooled
    omega
  · rw [outstanding_closed closed]
    show after loan.token keeper = s.ledger loan.token keeper + (cash - pool.cash) +
      (0 - s.activeCollateral loan.token loan.id)
    rw [LendingState.activeCollateral, stored, outstanding_active active, moved]
    ring
  · obtain rfl := Option.mem_unique (sound.stored pooled) same
    refine fair_of_assets_le (sound.shares_nonneg pooled) ?_ rfl
    unfold LendingPool.assets
    simp only
    omega

theorem Sound.savePool (sound : Sound keeper before s) (key : pool.token = token)
    (floor : minCollateralBpsFloor ≤ pool.minCollateralBps) (money : s.book token = pool.book) :
    Kept keeper before s { s with pools := update s.pools token (some pool) } := by
  have updated : ({ s with pools := update s.pools token (some pool) } : LendingState).pools =
      update s.pools token (some pool) := rfl
  have books : ({ s with pools := update s.pools token (some pool) } :
      LendingState).book = s.book := by
    funext other
    rw [book_update updated]
    split_ifs with same
    · rw [same, money]
    · rfl
  refine ⟨⟨terms_update sound updated key floor, fun other => ?_, sound.numbered, sound.secured⟩,
    exchanged_update updated fun old found => ?_⟩
  · rw [books]
    exact sound.balanced other
  · rw [book_of_found found] at money
    have same := Book.mk.inj money
    refine fair_of_assets_le (sound.shares_nonneg found) ?_ same.2.2.symm
    unfold LendingPool.assets
    rw [same.1, same.2.1]

section Calls

variable {env : Env} {lender borrower : Address} (sound : Sound env.self before s)
include sound

@[simp] theorem depositLiquidity_kept (amount : Int) :
    (depositLiquidity env token lender amount).wp s fun _ => Kept env.self before s := by
  refine (depositLiquidity_wp amount).mono ?_
  rintro shares _ ⟨pool, after, other, pos, minted, found, price, moved, rfl⟩
  have funded := sound.cash_nonneg found
  have issued := sound.shares_nonneg found
  have owned := (sound.balanced token).owned lender
  refine ⟨sound.withLiquidity found (by omega) (by ring) (by omega) (fun none => by omega) ?_ ?_,
    exchanged_update rfl fun old same => ?_⟩
  · rw [Ledger.transfer_receiver moved other.symm]
    ring
  · intro token' ne
    exact Ledger.transfer_frame moved ne _
  · obtain rfl := Option.mem_unique (sound.stored found) same
    have fair := sound.mint_fair found pos price
    have assets : pool.cash + amount + pool.totalBorrowed - (pool.cash + pool.totalBorrowed) =
        amount := by ring
    have issued : pool.totalShares + shares - pool.totalShares = shares := by ring
    unfold LendingPool.assets
    simp only [assets, issued]
    exact fair

@[simp] theorem withdrawLiquidity_kept (shares : Int) :
    (withdrawLiquidity env token lender shares).wp s fun _ => Kept env.self before s := by
  refine (withdrawLiquidity_wp shares).mono ?_
  rintro amount _ ⟨pool, after, other, pos, owned, found, issued, rfl, liquid, moved, rfl⟩
  refine ⟨sound.withLiquidity found (by omega) (by ring) (by omega) (fun none => ?_) ?_ ?_,
    exchanged_update rfl fun old same => ?_⟩
  · have lent := sound.lent_nonneg found
    have all : shares = pool.totalShares := by omega
    rw [all, Int.mul_tdiv_cancel_left _ issued] at liquid ⊢
    unfold LendingPool.assets at liquid ⊢
    omega
  · rw [Ledger.transfer_sender moved other]
    ring
  · intro token' ne
    exact Ledger.transfer_frame moved ne _
  · obtain rfl := Option.mem_unique (sound.stored found) same
    have nonneg := sound.shares_nonneg found
    have fair : Fair pool.assets pool.totalShares
        (-(shares * pool.assets).tdiv pool.totalShares) (-shares) :=
      fair_of_floor_assets (sound.assets_nonneg found) pos.le (by omega)
    generalize (shares * pool.assets).tdiv pool.totalShares = amount at fair ⊢
    have assets : pool.cash - amount + pool.totalBorrowed - (pool.cash + pool.totalBorrowed) =
        -amount := by ring
    have burnt : pool.totalShares - shares - pool.totalShares = -shares := by ring
    unfold LendingPool.assets at fair ⊢
    simp only [assets, burnt]
    exact fair

@[simp] theorem borrow_kept (collateral amount : Int) (durationSecs : Nat) :
    (borrow env token borrower collateral amount durationSecs).wp s fun _ =>
      Kept env.self before s := by
  refine (borrow_wp collateral amount durationSecs).mono ?_
  rintro id _ ⟨pool, posted, after, other, pos, found, liquid, covered, first, second, rfl, rfl⟩
  have fresh := sound.numbered (s.loanCounter + 1) (Nat.lt_succ_self _)
  have uncounted (amount : Loan → Int) :
      outstanding token amount (s.loans (s.loanCounter + 1)) = 0 := by
    rw [fresh]
    rfl
  have floor : (10000 : Int) ≤ pool.minCollateralBps := by
    exact_mod_cast (sound.terms token pool found).2
  have secured : amount ≤ collateral := by
    have scaled : amount * 10000 ≤ amount * pool.minCollateralBps :=
      Int.mul_le_mul_of_nonneg_left floor pos.le
    have whole : amount * pool.minCollateralBps ≤ collateral * 10000 := covered
    omega
  refine ⟨sound.withLoan found (fun old stored => ?_) (fun _ => ⟨pos, secured⟩)
    (Nat.le_succ _) (le_refl _) ?_ (by omega) (fun none => ?_) ?_ ?_,
    exchanged_update rfl fun old same => ?_⟩
  · rw [fresh] at stored
    cases stored
  · rw [LendingState.activePrincipal, uncounted, outstanding_active rfl]
    ring
  · have nothing := (sound.empty_pool found none).1
    omega
  · rw [LendingState.activeCollateral, uncounted, outstanding_active rfl]
    rw [Ledger.transfer_sender second other, Ledger.transfer_receiver first other.symm]
    ring
  · intro token' ne
    rw [Ledger.transfer_frame second ne, Ledger.transfer_frame first ne]
  · obtain rfl := Option.mem_unique (sound.stored found) same
    refine fair_of_assets_le (sound.shares_nonneg found) ?_ rfl
    unfold LendingPool.assets
    simp only
    omega

@[simp] theorem repayLoan_kept (loanId : Nat) :
    (repayLoan env loanId borrower).wp s fun _ => Kept env.self before s := by
  have lent : ∀ loan, s.loans loanId = some loan → loan.status = .active → 0 ≤ loan.principal :=
    fun loan found active => ((sound.secured loanId loan found).2 active).1.le
  refine (repayLoan_wp loanId lent).mono ?_
  rintro owed _
    ⟨loan, pool, repaid, after, other, found, active, covers, first, second, pooled, rfl⟩
  refine sound.close found active (by decide) pooled (by omega) ?_ ?_
  · rw [Ledger.transfer_sender second other, Ledger.transfer_receiver first other.symm]
    ring
  · intro token' ne
    rw [Ledger.transfer_frame second ne, Ledger.transfer_frame first ne]

@[simp] theorem liquidateLoan_kept (loanId : Nat) (caller : Address) :
    (liquidateLoan env loanId caller).wp s fun _ => Kept env.self before s := by
  refine (liquidateLoan_wp loanId caller).mono ?_
  rintro seized _ ⟨loan, pool, found, active, -, pooled, rfl⟩
  have secured := ((sound.secured loanId loan found).2 active).2
  exact sound.close found active (by decide) pooled (by omega) (by ring) fun _ _ => rfl

@[simp] theorem createPool_kept (admin : Address) (interestBps minCollateralBps : Nat) :
    (createPool env admin token interestBps minCollateralBps).wp s fun _ =>
      Kept env.self before s := by
  simp only [createPool, validateConfig, savePool, wp_core, wp_rules]
  rintro - config missing
  refine sound.savePool rfl (Nat.le_of_not_lt fun low => config (.inr low)) ?_
  rw [book_of_missing missing]
  rfl

@[simp] theorem setPoolTerms_kept (admin : Address) (interestBps minCollateralBps : Nat) :
    (setPoolTerms env admin token interestBps minCollateralBps).wp s fun _ =>
      Kept env.self before s := by
  simp only [setPoolTerms, validateConfig, savePool, wp_core, wp_rules]
  rintro - config pool found -
  have key := (sound.terms token pool found).1
  rw [key]
  refine sound.savePool rfl (Nat.le_of_not_lt fun low => config (.inr low)) ?_
  rw [book_of_found found]
  rfl

theorem elsewhere_kept (sender receiver : Address) (amount : Int) :
    (exec env (.elsewhere token sender receiver amount)).wp s fun _ => Kept env.self before s := by
  simp only [exec.eq_def, wp_core, wp_rules]
  rintro ⟨notSender, notReceiver⟩ after moved
  have kept := Ledger.transfer_others moved notSender.symm notReceiver.symm
  refine ⟨⟨sound.terms, fun other => ?_, sound.numbered, sound.secured⟩, exchanged_of_same rfl⟩
  have balanced := sound.balanced other
  rw [← kept other] at balanced
  exact balanced

theorem exec_kept (call : LendingCall) : (exec env call).wp s fun _ => Kept env.self before s := by
  cases call with
  | elsewhere token sender receiver amount => exact elsewhere_kept sound sender receiver amount
  | _ => simp [exec.eq_def, sound]

end Calls

theorem step_sound {input : LendingInput} (sound : Sound keeper before s)
    (stepped : step keeper s input t) : Sound keeper before t := by
  obtain ⟨rfl, ran⟩ := stepped
  exact (exec_kept sound input.call () t ran).1

variable {start : LendingState} {history : List (Event LendingState LendingInput)}

theorem run_sound (run : LendingRun keeper start history s) (blank : start.Blank) :
    Sound keeper (start.ledger · keeper) s :=
  run.invariant (Sound keeper (start.ledger · keeper)) (fun _ _ => True) blank.sound
    (fun _ _ _ sound _ stepped => step_sound sound stepped) fun _ _ => trivial

/-- **The accounts of a pool**, in every state that any parties reach from empty storage. What the
contract holds for the pool is what it holds beyond its holdings at the start. -/
theorem lending_accounts (run : LendingRun keeper start history s) (blank : start.Blank)
    (found : s.pools token = some pool) :
    Tally (s.positions token) pool.totalShares ∧
      Tally (s.activePrincipal token) pool.totalBorrowed ∧ 0 ≤ pool.cash ∧
      (∃ collateral, Tally (s.activeCollateral token) collateral ∧
        s.ledger token keeper - start.ledger token keeper = pool.cash + collateral) ∧
      (pool.totalShares = 0 → pool.cash = 0 ∧ pool.totalBorrowed = 0) := by
  have balanced := (run_sound run blank).pool_balanced found
  refine ⟨balanced.shares, balanced.borrowed, balanced.cash, ⟨_, balanced.held, ?_⟩, balanced.empty⟩
  simp only [LendingPool.book]
  ring

def fundedLending : LendingState :=
  { ledger := fun _ holder => if holder = ⟨3⟩ ∨ holder = ⟨4⟩ then 1000 else 0 }

theorem fundedLending_blank : fundedLending.Blank :=
  ⟨fun _ => rfl, fun _ _ => rfl, fun _ => rfl, rfl⟩

def plainCalls (calls : List (Nat × Address × LendingCall)) : List LendingInput :=
  calls.map fun (now, signer, call) => ⟨plainEnv now [signer], call⟩

def lendingReplay (calls : List (Nat × Address × LendingCall)) :
    List (Event LendingState LendingInput) × LendingState :=
  play (fun input => exec input.env input.call) fundedLending (plainCalls calls)

theorem lendingReplay_run (calls : List (Nat × Address × LendingCall)) :
    LendingRun ⟨0⟩ fundedLending (lendingReplay calls).1 (lendingReplay calls).2 := by
  refine play_run fun input member s t ran => ⟨?_, ran⟩
  obtain ⟨⟨now, signer, call⟩, -, rfl⟩ := List.mem_map.mp member
  rfl

def lendingScenario : List (Nat × Address × LendingCall) :=
  [(0, ⟨2⟩, .createPool ⟨2⟩ ⟨1⟩ 1000 15000),
   (1, ⟨3⟩, .depositLiquidity ⟨1⟩ ⟨3⟩ 600),
   (2, ⟨4⟩, .borrow ⟨1⟩ ⟨4⟩ 300 200 100),
   (3, ⟨4⟩, .borrow ⟨1⟩ ⟨4⟩ 150 100 50),
   (31536002, ⟨4⟩, .repayLoan 1 ⟨4⟩),
   (31536003, ⟨5⟩, .liquidateLoan 2 ⟨5⟩),
   (31536004, ⟨3⟩, .withdrawLiquidity ⟨1⟩ ⟨3⟩ 100),
   (31536005, ⟨4⟩, .borrow ⟨1⟩ ⟨4⟩ 90 60 50)]

theorem lendingScenario_pool : (lendingReplay lendingScenario).2.pools ⟨1⟩ =
      some ⟨⟨2⟩, ⟨1⟩, 499, 60, 500, 1000, 15000⟩ := by
  decide +kernel

theorem lending_accounts_scenario :
    ∃ collateral, Tally ((lendingReplay lendingScenario).2.activeCollateral ⟨1⟩) collateral ∧
      (lendingReplay lendingScenario).2.ledger ⟨1⟩ ⟨0⟩ - 0 = 499 + collateral :=
  (lending_accounts (lendingReplay_run lendingScenario) fundedLending_blank
    lendingScenario_pool).2.2.2.1

theorem Exchanged.price_le (exchanged : Exchanged s t)
    (found : s.pools token = some old) (later : t.pools token = some new)
    (issued : 0 < old.totalShares) (left : 0 < new.totalShares) : old.price ≤ new.price := by
  have price := (exchanged token old new found later).price_le issued (by omega)
  rw [add_sub_cancel, add_sub_cancel] at price
  exact price

theorem round_trip_le (sound : Sound keeper before s) {env later : Env}
    {amount paid : Int} {u : LendingState}
    (bought : depositLiquidity env token lender amount s = .ok (shares, t))
    (sold : withdrawLiquidity later token lender shares t = .ok (paid, u)) : paid ≤ amount := by
  obtain ⟨pool, after, -, pos, minted, found, price, -, rfl⟩ :=
    depositLiquidity_wp amount shares t bought
  obtain ⟨bigger, _, -, -, -, stored, -, rfl, -⟩ := withdrawLiquidity_wp shares paid u sold
  have key := (sound.terms token pool found).1
  simp only [LendingState.withLiquidity, key, update_self, Option.some.injEq] at stored
  subst stored
  have fair := sound.mint_fair found pos price
  have owned := sound.assets_nonneg found
  have issued := sound.shares_nonneg found
  have assets : pool.cash + amount + pool.totalBorrowed = pool.assets + amount := by
    unfold LendingPool.assets
    ring
  show (shares * (pool.cash + amount + pool.totalBorrowed)).tdiv (pool.totalShares + shares) ≤ amount
  rw [assets]
  exact redeem_le fair (by omega) minted.le (by omega)

/-- **Lenders never lose to rounding.** No call lowers the price of a share of a pool that has
shares before and after it; and shares bought and sold again at once bring back at most what was
paid. -/
theorem lenders_never_lose (run : LendingRun keeper start history s) (blank : start.Blank) :
    (∀ (input : LendingInput) (t : LendingState) (token : Address) (old new : LendingPool),
      step keeper s input t → s.pools token = some old → t.pools token = some new →
      0 < old.totalShares → 0 < new.totalShares → old.price ≤ new.price) ∧
    (∀ (env later : Env) (token lender : Address) (amount shares paid : Int)
      (t u : LendingState), depositLiquidity env token lender amount s = .ok (shares, t) →
      withdrawLiquidity later token lender shares t = .ok (paid, u) → paid ≤ amount) := by
  have sound := run_sound run blank
  constructor
  · rintro input t token old new ⟨rfl, ran⟩ found later issued left
    exact (exec_kept sound input.call () t ran).2.price_le found later issued left
  · intro env later token lender amount shares paid t u bought sold
    exact round_trip_le sound bought sold

/-- One more deposit after the scenario. -/
theorem lenders_never_lose_scenario :
    ∃ (t : LendingState) (old new : LendingPool), step ⟨0⟩ (lendingReplay lendingScenario).2
        ⟨plainEnv 31536006 [⟨3⟩], .depositLiquidity ⟨1⟩ ⟨3⟩ 50⟩ t ∧
      (lendingReplay lendingScenario).2.pools ⟨1⟩ = some old ∧ t.pools ⟨1⟩ = some new ∧
      old.totalShares = 500 ∧ new.totalShares = 544 ∧ old.price ≤ new.price := by
  have later : ((exec (plainEnv 31536006 [⟨3⟩]) (.depositLiquidity ⟨1⟩ ⟨3⟩ 50)).after
      (lendingReplay lendingScenario).2).pools ⟨1⟩ =
        some ⟨⟨2⟩, ⟨1⟩, 549, 60, 544, 1000, 15000⟩ := by decide +kernel
  refine ⟨_, _, _, ⟨rfl, rfl⟩, lendingScenario_pool, later, rfl, rfl, ?_⟩
  exact (lenders_never_lose (lendingReplay_run lendingScenario) fundedLending_blank).1
    ⟨plainEnv 31536006 [⟨3⟩], .depositLiquidity ⟨1⟩ ⟨3⟩ 50⟩ _ ⟨1⟩ _ _ ⟨rfl, rfl⟩
    lendingScenario_pool later (by decide) (by decide)

end EthosContracts.TtlVault.Lending
