/-
**Undoing a withdrawal.**

`rollback_withdrawal` and `reverse_withdrawal` add to a vault's balance. Undoing a payment should
take the payment back; neither call moves a token.
-/

import Mathlib.Algebra.Order.BigOperators.Group.List
import EthosContracts.TtlVault.Call
import EthosContracts.TtlVault.Rules

namespace EthosContracts.TtlVault

open Lib Function

/-! ### Credits and withdrawals of a history -/

def Call.isUndo : Call → Bool
  | .rollbackWithdrawal .. => true
  | .reverseWithdrawal .. => true
  | _ => false

def State.balance (s : State) (id : VaultId) : Int :=
  (s.vaults id).elim 0 Vault.balance

def creditOf (id : VaultId) (event : VaultEvent) : Int :=
  if event.input.call.isUndo then
    max 0 (event.after.balance id - event.before.balance id)
  else 0

def withdrawalOf (id : VaultId) (event : VaultEvent) : Int :=
  match event.input.call with
  | .withdraw target _ amount => if target = id then amount else 0
  | _ => 0

def credited (id : VaultId) (history : History) : Int :=
  (history.map (creditOf id)).sum

def withdrawn (id : VaultId) (history : History) : Int :=
  (history.map (withdrawalOf id)).sum

/-- **A withdrawal is undone with the money it paid.** -/
structure UndoBacked (host : Host) (history : History) : Prop where
  /-- A call that undoes a withdrawal takes in what it credits. -/
  funded : ∀ event ∈ history, event.input.call.isUndo → ∀ id vault vault',
    event.before.vaults id = some vault → event.after.vaults id = some vault' →
    vault.balance < vault'.balance →
    event.after.ledger vault.tokenAddress host.self =
      event.before.ledger vault.tokenAddress host.self + (vault'.balance - vault.balance)
  /-- At every point of the run, the credits are covered by the withdrawals before them. -/
  covered : ∀ earlier, earlier <+: history → ∀ id, credited id earlier ≤ withdrawn id earlier

def UndoesNothing (s : State) : Call → Prop
  | .rollbackWithdrawal .. => False
  | .reverseWithdrawal id _ withdrawalId =>
    ∀ record, s.withdrawals.reversal id withdrawalId = some record → record.amount ≤ 0
  | _ => True

/-! ### The calls -/

def State.credit (s : State) (id : VaultId) (vault : Vault) (amount : Int) : State :=
  { s with
    vaults := update s.vaults id (some { vault with balance := vault.balance + amount }) }

theorem State.credit_balance {s : State} {id : VaultId} {vault : Vault} {amount : Int}
    (found : s.vaults id = some vault) (other : VaultId) :
    (s.credit id vault amount).balance other =
      s.balance other + if other = id then amount else 0 := by
  by_cases same : other = id
  · subst same
    simp only [State.balance, State.credit, update_self, found, Option.elim_some, if_true]
  · simp only [State.balance, State.credit, update_of_ne same, if_neg same, add_zero]

theorem rollbackWithdrawal_spec (env : Env) (id : VaultId) (amount : Int) (caller : Address)
    (s : State) :
    (rollbackWithdrawal env id amount caller).wp s fun _ t =>
      0 < amount ∧ ∃ vault, s.vaults id = some vault ∧ t = s.credit id vault amount := by
  simp only [rollbackWithdrawal, wp_rules]
  intro pos _ vault found _ _
  exact ⟨pos, vault, found, rfl⟩

theorem reverseWithdrawal_spec (env : Env) (id : VaultId) (caller : Address)
    (withdrawalId : Nat) (s : State) :
    (reverseWithdrawal env id caller withdrawalId).wp s fun _ t =>
      ∃ vault record withdrawals, s.vaults id = some vault ∧
        s.withdrawals.reversal id withdrawalId = some record ∧
        t = { s.credit id vault record.amount with withdrawals := withdrawals } := by
  simp only [reverseWithdrawal, wp_rules]
  intro _ _ vault found _ record stored _ _ _
  exact ⟨vault, record, _, found, stored, rfl⟩

theorem withdraw_positive (env : Env) (id : VaultId) (caller : Address) (amount : Int)
    (s : State) : (withdraw env id caller amount).wp s fun _ _ => 0 < amount := by
  simp only [withdraw, recordWithdrawalForReversal, wp_rules]
  intro _ pos
  intros
  refine Tx.wp.mono (.const pos) fun _ _ pos => ?_
  intros
  exact pos

theorem undo_spec (env : Env) {call : Call} (undo : call.isUndo) (s : State) :
    (exec env call).wp s fun _ t => ∃ id vault amount, s.vaults id = some vault ∧
      t.vaults = (s.credit id vault amount).vaults ∧ t.ledger = s.ledger ∧
      (UndoesNothing s call ↔ amount ≤ 0) := by
  cases call <;> simp only [Call.isUndo, Bool.false_eq_true] at undo
  case rollbackWithdrawal id amount caller =>
    refine (rollbackWithdrawal_spec env id amount caller s).mono fun _ t outcome => ?_
    obtain ⟨pos, vault, found, rfl⟩ := outcome
    refine ⟨id, vault, amount, found, rfl, rfl, ?_⟩
    simp only [UndoesNothing, false_iff, not_le]
    exact pos
  case reverseWithdrawal id caller withdrawalId =>
    refine (reverseWithdrawal_spec env id caller withdrawalId s).mono fun _ t outcome => ?_
    obtain ⟨vault, record, withdrawals, found, stored, rfl⟩ := outcome
    refine ⟨id, vault, record.amount, found, rfl, rfl, ?_⟩
    simp only [UndoesNothing, stored, Option.some.injEq, forall_eq']

section Runs

variable {host : Host} {event : VaultEvent}

section

variable (stepped : step host event.before event.input event.after)
include stepped

theorem creditOf_of_undoesNothing (nothing : UndoesNothing event.before event.input.call)
    (id : VaultId) : creditOf id event = 0 := by
  unfold creditOf
  split
  · rename_i undo
    obtain ⟨target, vault, amount, found, vaults, -, pos⟩ :=
      undo_spec event.input.env undo event.before _ _ stepped.2
    have after : event.after.balance id = (event.before.credit target vault amount).balance id := by
      unfold State.balance
      rw [vaults]
    have nonpos := pos.mp nothing
    rw [after, State.credit_balance found]
    refine max_eq_left ?_
    split <;> omega
  · rfl

theorem withdrawalOf_nonneg (id : VaultId) : 0 ≤ withdrawalOf id event := by
  have ran := stepped.2
  unfold withdrawalOf
  split
  · rename_i target caller amount same
    rw [same] at ran
    have pos := withdraw_positive _ _ _ _ _ _ _ ran
    split <;> omega
  · rfl

theorem undoesNothing_of_funded
    (funded : event.input.call.isUndo → ∀ id vault vault', event.before.vaults id = some vault →
      event.after.vaults id = some vault' → vault.balance < vault'.balance →
      event.after.ledger vault.tokenAddress host.self =
        event.before.ledger vault.tokenAddress host.self + (vault'.balance - vault.balance)) :
    UndoesNothing event.before event.input.call := by
  by_cases undo : event.input.call.isUndo
  · obtain ⟨target, vault, amount, found, vaults, ledger, pos⟩ :=
      undo_spec event.input.env undo event.before _ _ stepped.2
    rw [pos]
    by_contra credited
    have after : event.after.vaults target =
        some { vault with balance := vault.balance + amount } := by
      rw [vaults]
      exact update_self _ _ _
    -- the balance rises, but the ledger is the one before the call
    have moved := funded undo target vault _ found after (by show _ < _ + _; omega)
    rw [ledger] at moved
    have rise : (vault.balance + amount) - vault.balance = amount := by omega
    simp only [rise] at moved
    omega
  · revert undo
    cases event.input.call <;> simp [Call.isUndo, UndoesNothing]

end

/-- **A run undoes withdrawals without creating money exactly if it undoes nothing**, whatever else
it contains. -/
theorem undoBacked_iff {start s : State} {history : History}
    (run : ContractRun host start history s) :
    UndoBacked host history ↔ ∀ event ∈ history, UndoesNothing event.before event.input.call := by
  constructor
  · intro backed event member
    exact undoesNothing_of_funded (run.stepped event member) (backed.funded event member)
  · intro nothing
    refine ⟨?_, ?_⟩
    · intro event member undo id vault vault' found after rises
      have zero := creditOf_of_undoesNothing (run.stepped event member) (nothing event member) id
      simp only [creditOf, undo, State.balance, found, after, Option.elim_some, if_true] at zero
      omega
    · intro earlier isPrefix id
      have stepped : ∀ event ∈ earlier, step host event.before event.input event.after :=
        fun event member => run.stepped event (isPrefix.mem member)
      have none : credited id earlier = 0 := by
        refine List.sum_eq_zero fun credit member => ?_
        obtain ⟨event, known, rfl⟩ := List.mem_map.mp member
        exact creditOf_of_undoesNothing (stepped event known)
          (nothing event (isPrefix.mem known)) id
      have nonneg : 0 ≤ withdrawn id earlier := by
        refine List.sum_nonneg fun amount member => ?_
        obtain ⟨event, known, rfl⟩ := List.mem_map.mp member
        exact withdrawalOf_nonneg (stepped event known) id
      rw [none]
      exact nonneg

end Runs

def withdrawalScenario : List Invocation :=
  [⟨plainEnv 1000 [⟨3⟩], .createVault ⟨3⟩ ⟨4⟩ 86400 none⟩,
   ⟨plainEnv 1001 [⟨3⟩], .deposit 1 ⟨3⟩ 100⟩,
   ⟨plainEnv 1002 [⟨3⟩], .withdraw 1 ⟨3⟩ 30⟩]

theorem undoBacked_withdrawalScenario :
    (let history := (replay fundedState withdrawalScenario).1
     UndoBacked plainHost history ∧ withdrawn 1 history = 30) := by
  have harmless : ∀ input ∈ withdrawalScenario, ∀ s, UndoesNothing s input.call := by
    simp [withdrawalScenario, UndoesNothing]
  refine ⟨(undoBacked_iff (replay_run fundedState withdrawalScenario ?_)).mpr ?_, ?_⟩
  · simp [withdrawalScenario, plainEnv]
  · intro event member
    exact harmless _ (replay_inputs fundedState withdrawalScenario event member) _
  · decide +kernel

def rollbackScenario : List Invocation :=
  withdrawalScenario ++ [⟨plainEnv 1003 [⟨3⟩], .rollbackWithdrawal 1 50 ⟨3⟩⟩]

theorem rollback_not_backed :
    (let record := replay fundedState rollbackScenario
     PlainRun record.1 record.2 ∧
      record.2.balance 1 = 120 ∧ record.2.ledger ⟨1⟩ plainHost.self = 70 ∧
      ¬ UndoBacked plainHost record.1) := by
  refine ⟨replay_run fundedState rollbackScenario ?_, ?_, ?_, fun backed => ?_⟩
  · simp [rollbackScenario, withdrawalScenario, plainEnv]
  · decide +kernel
  · decide +kernel
  · have covered := backed.covered _ (List.prefix_refl _) 1
    revert covered
    decide +kernel

/-- A reversal of the withdrawal leaves the contract 30 short in the same way. -/
example :
    (let s := (replay fundedState (withdrawalScenario ++
        [⟨plainEnv 1003 [⟨3⟩], .reverseWithdrawal 1 ⟨3⟩ 0⟩])).2
     s.balance 1 = 100 ∧ s.ledger ⟨1⟩ plainHost.self = 70) := by
  decide +kernel

end EthosContracts.TtlVault
