/-
**Borrowing time: what a loan and a repayment do to the sum of the check-ins.**
-/

import Mathlib.Algebra.BigOperators.Group.Finset.Piecewise
import EthosContracts.TtlVault.Deadline

namespace EthosContracts.TtlVault

open Lib Function List

/-! ### The sum of the check-ins -/

/-- The last check-in of a vault; zero where there is none. -/
def State.lastCheckIn (s : State) (id : VaultId) : Nat :=
  match s.vaults id with
  | some v => v.lastCheckIn
  | none => 0

/-- The sum of `last_check_in` over all vaults. -/
def State.totalLastCheckIn (s : State) : Nat :=
  ∑ id ∈ Finset.range (s.vaultCount + 1), s.lastCheckIn id

variable {s t : State} {id : VaultId} {v w : Vault}

theorem lastCheckIn_of_found (found : s.vaults id = some v) : s.lastCheckIn id = v.lastCheckIn := by
  unfold State.lastCheckIn
  rw [found]

theorem State.Counted.le_of_found (counted : s.Counted)
    (found : s.vaults id = some v) : id ≤ s.vaultCount := by
  by_contra beyond
  rw [counted id (Nat.lt_of_not_le beyond)] at found
  cases found

theorem lastCheckIn_update (vaults : t.vaults = update s.vaults id (some w)) :
    t.lastCheckIn = update s.lastCheckIn id w.lastCheckIn := by
  funext other
  unfold State.lastCheckIn
  by_cases same : other = id
  · subst same
    rw [vaults, update_self, update_self]
  · rw [vaults, update_of_ne same, update_of_ne same]

theorem totalLastCheckIn_update (counted : s.Counted)
    (found : s.vaults id = some v) (vaults : t.vaults = update s.vaults id (some w))
    (count : t.vaultCount = s.vaultCount) :
    t.totalLastCheckIn + v.lastCheckIn = s.totalLastCheckIn + w.lastCheckIn := by
  have inside : id ∈ Finset.range (s.vaultCount + 1) :=
    Finset.mem_range.mpr (Nat.lt_succ_of_le (counted.le_of_found found))
  unfold State.totalLastCheckIn
  rw [count, lastCheckIn_update vaults, Finset.sum_update_of_mem inside,
    Finset.sum_eq_add_sum_sdiff_singleton_of_mem inside s.lastCheckIn, lastCheckIn_of_found found]
  omega

/-! ### Loans and repayments -/

section Calls

variable (env : Env) {s : State}

theorem borrowTtl_spec (borrowerVaultId lenderVaultId : VaultId) (caller : Address)
    (borrowSeconds : Nat) :
    (borrowTtl env borrowerVaultId lenderVaultId caller borrowSeconds).wp s fun _ t =>
      ∃ borrower lender, s.vaults borrowerVaultId = some borrower ∧
        s.vaults lenderVaultId = some lender ∧ borrowerVaultId ≠ lenderVaultId ∧
        borrowSeconds ≠ 0 ∧ t.vaultCount = s.vaultCount ∧
        t.vaults = update (update s.vaults borrowerVaultId (some { borrower with
            lastCheckIn := saturatingAdd borrower.lastCheckIn borrowSeconds }))
          lenderVaultId (some { lender with
            lastCheckIn := lender.lastCheckIn - borrowSeconds }) := by
  simp only [borrowTtl, setTtlBorrow, wp_rules]
  rintro _ _ ⟨pos, ne⟩ _ borrower found _ _ lender foundLender _ _ _
  exact ⟨borrower, lender, found, foundLender, ne, pos, trivial, rfl⟩

/-- A loan adds to the borrower what fits and takes from the lender what is there. -/
theorem borrowTtl_total (counted : s.Counted) (borrowerVaultId lenderVaultId : VaultId)
    (caller : Address) (borrowSeconds : Nat) :
    (borrowTtl env borrowerVaultId lenderVaultId caller borrowSeconds).wp s fun _ t =>
      t.totalLastCheckIn + min borrowSeconds (s.lastCheckIn lenderVaultId) =
        s.totalLastCheckIn + min borrowSeconds (maxU64 - s.lastCheckIn borrowerVaultId) := by
  refine (borrowTtl_spec env borrowerVaultId lenderVaultId caller borrowSeconds).mono ?_
  intro _ t outcome
  obtain ⟨borrower, lender, found, foundLender, ne, -, count, vaults⟩ := outcome
  let middle : State := { s with
    vaults := update s.vaults borrowerVaultId (some { borrower with
      lastCheckIn := saturatingAdd borrower.lastCheckIn borrowSeconds }) }
  have first := totalLastCheckIn_update counted found (t := middle) rfl rfl
  have countedMiddle : middle.Counted := by
    intro id beyond
    have absent := counted id beyond
    have other : id ≠ borrowerVaultId := by
      intro same
      rw [same, found] at absent
      cases absent
    show update s.vaults borrowerVaultId _ id = none
    rw [update_of_ne other, absent]
  have foundMiddle : middle.vaults lenderVaultId = some lender := by
    show update s.vaults borrowerVaultId _ lenderVaultId = some lender
    rw [update_of_ne ne.symm, foundLender]
  have second := totalLastCheckIn_update countedMiddle foundMiddle vaults count
  rw [lastCheckIn_of_found found, lastCheckIn_of_found foundLender]
  unfold saturatingAdd at first
  dsimp only at first second
  omega

theorem repayTtlBorrow_spec (borrowerVaultId : VaultId) (caller : Address) :
    (repayTtlBorrow env borrowerVaultId caller).wp s fun _ t =>
      ∃ record lender, s.checkIns.ttlBorrow borrowerVaultId = some record ∧
        s.vaults record.lenderVaultId = some lender ∧ t.vaultCount = s.vaultCount ∧
        t.vaults = update s.vaults record.lenderVaultId (some { lender with
          lastCheckIn := saturatingAdd lender.lastCheckIn record.borrowedSeconds }) := by
  simp only [repayTtlBorrow, setTtlBorrow, wp_rules]
  intro _ _ _ _ record stored _ lender found
  exact ⟨record, lender, stored, found, trivial, rfl⟩

/-- A repayment gives the lender the time back and leaves the borrower alone. -/
theorem repayTtlBorrow_total (counted : s.Counted) (borrowerVaultId : VaultId) (caller : Address) :
    (repayTtlBorrow env borrowerVaultId caller).wp s fun _ t =>
      ∃ record, s.checkIns.ttlBorrow borrowerVaultId = some record ∧
        t.totalLastCheckIn = s.totalLastCheckIn +
          min record.borrowedSeconds (maxU64 - s.lastCheckIn record.lenderVaultId) := by
  refine (repayTtlBorrow_spec env borrowerVaultId caller).mono ?_
  intro _ t outcome
  obtain ⟨record, lender, stored, found, count, vaults⟩ := outcome
  have change := totalLastCheckIn_update counted found vaults count
  refine ⟨record, stored, ?_⟩
  rw [lastCheckIn_of_found found]
  unfold saturatingAdd at change
  dsimp only at change
  omega

theorem repayTtlBorrow_mono (borrowerVaultId : VaultId) (caller : Address) (id : VaultId) :
    (repayTtlBorrow env borrowerVaultId caller).wp s fun _ t =>
      s.lastCheckIn id ≤ t.lastCheckIn id := by
  refine (repayTtlBorrow_spec env borrowerVaultId caller).mono ?_
  intro _ t outcome
  obtain ⟨record, lender, -, found, -, vaults⟩ := outcome
  rw [lastCheckIn_update vaults]
  by_cases same : id = record.lenderVaultId
  · subst same
    rw [update_self, lastCheckIn_of_found found]
    unfold saturatingAdd
    exact Nat.le_add_right _ _
  · rw [update_of_ne same]

end Calls

/-! ### The two laws and their conditions -/

/-- No step changes the sum of the check-ins. -/
def TotalKept (history : History) : Prop :=
  ∀ event ∈ history, event.after.totalLastCheckIn = event.before.totalLastCheckIn

/-- A repayment that restores the lender and the borrower of a loan. -/
def Restores (borrowerVaultId lenderVaultId : VaultId) (borrowSeconds : Nat)
    (event : VaultEvent) : Prop :=
  (∃ caller, event.input.call = .repayTtlBorrow borrowerVaultId caller) ∧
    event.after.lastCheckIn lenderVaultId = event.before.lastCheckIn lenderVaultId + borrowSeconds ∧
    event.before.lastCheckIn borrowerVaultId =
      event.after.lastCheckIn borrowerVaultId + borrowSeconds

/-- Every loan is followed by exactly one repayment that restores both vaults. -/
def LoansRestored (history : History) : Prop :=
  ∀ earlier loan later borrowerVaultId lenderVaultId caller borrowSeconds,
    history = earlier ++ loan :: later →
    loan.input.call = .borrowTtl borrowerVaultId lenderVaultId caller borrowSeconds →
    ∃ between repayment rest, later = between ++ repayment :: rest ∧
      Restores borrowerVaultId lenderVaultId borrowSeconds repayment ∧
      ∀ other ∈ between ++ rest, ¬ Restores borrowerVaultId lenderVaultId borrowSeconds other

/-- The two calls about borrowed time. -/
inductive LoanCall : Call → Prop
  | borrow {borrowerVaultId lenderVaultId caller borrowSeconds} :
      LoanCall (.borrowTtl borrowerVaultId lenderVaultId caller borrowSeconds)
  | repay {borrowerVaultId caller} : LoanCall (.repayTtlBorrow borrowerVaultId caller)

def Call.lendsNothing : Call → Prop
  | .borrowTtl _ _ _ _ => False
  | _ => True

def Balanced (s : State) : Call → Prop
  | .borrowTtl borrowerVaultId lenderVaultId _ borrowSeconds =>
    min borrowSeconds (maxU64 - s.lastCheckIn borrowerVaultId) =
      min borrowSeconds (s.lastCheckIn lenderVaultId)
  | .repayTtlBorrow borrowerVaultId _ => ∀ record ∈ s.checkIns.ttlBorrow borrowerVaultId,
    record.borrowedSeconds = 0 ∨ maxU64 ≤ s.lastCheckIn record.lenderVaultId
  | _ => True

section Steps

variable {host : Host} {event : VaultEvent}

theorem totalKept_step_iff (counted : event.before.Counted)
    (stepped : step host event.before event.input event.after) (loan : LoanCall event.input.call) :
    event.after.totalLastCheckIn = event.before.totalLastCheckIn ↔
      Balanced event.before event.input.call := by
  have ran := stepped.2
  generalize event.input.call = call at loan ran
  cases loan with
  | @borrow borrowerVaultId lenderVaultId caller borrowSeconds =>
    have total := borrowTtl_total event.input.env counted borrowerVaultId lenderVaultId caller
      borrowSeconds () event.after ran
    rw [Balanced]
    omega
  | @repay borrowerVaultId caller =>
    obtain ⟨record, stored, total⟩ :=
      repayTtlBorrow_total event.input.env counted borrowerVaultId caller () event.after ran
    rw [Balanced, stored]
    constructor
    · intro same other member
      obtain rfl := Option.some.inj member
      omega
    · intro balanced
      have full := balanced record rfl
      omega

theorem not_restores (stepped : step host event.before event.input event.after)
    {borrowerVaultId lenderVaultId : VaultId} {borrowSeconds : Nat} (pos : borrowSeconds ≠ 0) :
    ¬ Restores borrowerVaultId lenderVaultId borrowSeconds event := by
  intro restores
  obtain ⟨⟨caller, called⟩, -, borrower⟩ := restores
  have ran := stepped.2
  rw [called] at ran
  have kept := repayTtlBorrow_mono event.input.env borrowerVaultId caller borrowerVaultId () event.after
    ran
  omega

end Steps

/-- **When loans and repayments are conservative.** In every run of the two calls from a reachable
state: the sum of the check-ins stays exactly if every step meets its condition, and every loan is
restored exactly if there is none. -/
theorem conservative_iff {host : Host} {xlmToken admin : Address} {ledger : Ledger Address Address}
    {earlier history : History} {start s : State}
    (reached : ContractRun host (initialState xlmToken admin ledger) earlier start)
    (run : ContractRun host start history s)
    (loans : ∀ event ∈ history, LoanCall event.input.call) :
    (TotalKept history ↔ ∀ event ∈ history, Balanced event.before event.input.call) ∧
      (LoansRestored history ↔ ∀ event ∈ history, event.input.call.lendsNothing) := by
  have regular : start.Regular := run_regular reached (initialState_regular xlmToken admin ledger)
  have counted : ∀ event ∈ history, event.before.Counted := fun event member =>
    (run_regular_before run regular event member).counted
  refine ⟨forall₂_congr fun event member => totalKept_step_iff (counted event member)
    (run.stepped event member) (loans event member), ?_, ?_⟩
  · intro restored event member
    obtain ⟨front, back, whole⟩ := append_of_mem member
    have ran := (run.stepped event member).2
    generalize called : event.input.call = call at ran
    cases call with
    | borrowTtl borrowerVaultId lenderVaultId caller borrowSeconds =>
      obtain ⟨between, repayment, rest, split, restores, -⟩ :=
        restored front event back _ _ _ _ whole called
      obtain ⟨_, _, -, -, -, pos, -⟩ := borrowTtl_spec event.input.env borrowerVaultId
        lenderVaultId caller borrowSeconds () event.after ran
      have later : repayment ∈ history := by
        rw [whole, split]
        exact mem_append_right _ (mem_cons_of_mem _ mem_append_cons_self)
      exact absurd restores (not_restores (run.stepped repayment later) pos)
    | _ => trivial
  · intro nothing front loan back borrowerVaultId lenderVaultId caller borrowSeconds whole called
    have member : loan ∈ history := by
      rw [whole]
      exact mem_append_cons_self
    have lends := nothing loan member
    rw [called] at lends
    exact lends.elim

/-- The loan of one vault of an owner to the other keeps the sum, and is not restored. -/
theorem conservative_ownLoan :
    ownLoan.before.totalLastCheckIn = 3003 ∧ TotalKept [ownLoan] ∧ ¬ LoansRestored [ownLoan] := by
  have lends : ∀ event ∈ [ownLoan], LoanCall event.input.call := by
    intro event member
    rw [mem_singleton.mp member]
    exact .borrow
  have laws := conservative_iff threeVaults_run
    (nextEvent_run fundedState threeVaults ⟨plainEnv 2000 [⟨3⟩], .borrowTtl 1 2 ⟨3⟩ 500⟩ rfl) lends
  refine ⟨rfl, laws.1.mpr fun event member => ?_, fun restored => ?_⟩
  · rw [mem_singleton.mp member]
    rfl
  · exact laws.2.mp restored ownLoan (mem_singleton.mpr rfl)

def repaidLoan : List Invocation :=
  threeVaults ++ [⟨plainEnv 2000 [⟨3⟩], .borrowTtl 1 2 ⟨3⟩ 500⟩]

def ownRepayment : VaultEvent :=
  nextEvent fundedState repaidLoan ⟨plainEnv 2001 [⟨3⟩], .repayTtlBorrow 1 ⟨3⟩⟩

/-- The repayment raises the sum, and the borrower keeps the time. -/
theorem ownRepayment_not_conservative :
    ContractRun plainHost ownLoan.before [ownLoan, ownRepayment] ownRepayment.after ∧
      ownRepayment.before.totalLastCheckIn = 3003 ∧ ownRepayment.after.totalLastCheckIn = 3503 ∧
      ownLoan.before.lastCheckIn 1 = 1000 ∧ ownRepayment.after.lastCheckIn 1 = 1500 ∧
      ¬ TotalKept [ownLoan, ownRepayment] ∧ ¬ LoansRestored [ownLoan, ownRepayment] := by
  refine ⟨.snoc (Run.single ⟨rfl, rfl⟩) ⟨rfl, rfl⟩, rfl, rfl, rfl, rfl, fun total => ?_,
    fun restored => ?_⟩
  · cases total ownRepayment (by simp)
  · obtain ⟨between, repayment, rest, split, ⟨-, -, borrower⟩, -⟩ :=
      restored [] ownLoan [ownRepayment] 1 2 ⟨3⟩ 500 rfl rfl
    have member : repayment ∈ [ownRepayment] := by
      rw [split]
      exact mem_append_cons_self
    rw [mem_singleton.mp member] at borrower
    cases borrower

end EthosContracts.TtlVault
