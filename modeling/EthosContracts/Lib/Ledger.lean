/-
**Token ledgers: what every holder owns of every token, and the transfers between holders.**

`Ledger.transfer` moves exactly the stated amount, or fails: on a negative amount and on more than
the sender holds (`exists_transfer`). `holdings_sub_le_transfer` bounds what a payment takes from
any holder, its receiver included.
-/

import Mathlib.Logic.Function.Basic
import Mathlib.Algebra.Order.Ring.Int

namespace EthosContracts.Lib

abbrev Ledger (Token Holder : Type) : Type := Token → Holder → Int

namespace Ledger

variable {Token Holder : Type} [DecidableEq Token] [DecidableEq Holder]

def credit (ledger : Ledger Token Holder) (token : Token) (holder : Holder) (amount : Int) :
    Ledger Token Holder :=
  fun t h => if t = token ∧ h = holder then ledger t h + amount else ledger t h

/-- A transfer: exactly `amount` moves, or it fails. -/
def transfer (ledger : Ledger Token Holder) (token : Token) (sender receiver : Holder)
    (amount : Int) : Option (Ledger Token Holder) :=
  if 0 ≤ amount ∧ amount ≤ ledger token sender then
    some ((ledger.credit token sender (-amount)).credit token receiver amount)
  else none

variable {ledger after : Ledger Token Holder} {token : Token} {sender receiver : Holder}
  {amount : Int}

theorem transfer_eq_some : ledger.transfer token sender receiver amount = some after ↔
      (0 ≤ amount ∧ amount ≤ ledger token sender) ∧
        after = (ledger.credit token sender (-amount)).credit token receiver amount := by
  unfold transfer
  split_ifs with possible
  · simp only [Option.some.injEq, possible, and_self, true_and]
    exact eq_comm
  · simp [possible]

theorem exists_transfer (token : Token) (sender receiver : Holder) (nonneg : 0 ≤ amount)
    (covered : amount ≤ ledger token sender) :
    ∃ after, ledger.transfer token sender receiver amount = some after :=
  ⟨_, transfer_eq_some.mpr ⟨⟨nonneg, covered⟩, rfl⟩⟩

section

variable (moved : ledger.transfer token sender receiver amount = some after)
include moved

theorem transfer_frame {other : Token} (ne : other ≠ token) (holder : Holder) :
    after other holder = ledger other holder := by
  rw [transfer_eq_some] at moved
  obtain ⟨-, rfl⟩ := moved
  simp [credit, ne]

theorem transfer_others {holder : Holder} (notSender : holder ≠ sender)
    (notReceiver : holder ≠ receiver) (other : Token) :
    after other holder = ledger other holder := by
  rw [transfer_eq_some] at moved
  obtain ⟨-, rfl⟩ := moved
  simp [credit, notSender, notReceiver]

theorem transfer_receiver (ne : receiver ≠ sender) :
    after token receiver = ledger token receiver + amount := by
  rw [transfer_eq_some] at moved
  obtain ⟨-, rfl⟩ := moved
  simp [credit, ne]

theorem transfer_sender (ne : receiver ≠ sender) :
    after token sender = ledger token sender - amount := by
  rw [transfer_eq_some] at moved
  obtain ⟨-, rfl⟩ := moved
  simp [credit, ne.symm, Int.sub_eq_add_neg]

theorem transfer_holdings (holder : Holder) : after token holder = ledger token holder +
      (if holder = receiver then amount else 0) - if holder = sender then amount else 0 := by
  rw [transfer_eq_some] at moved
  obtain ⟨-, rfl⟩ := moved
  simp only [credit, true_and]
  split_ifs <;> omega

theorem holdings_sub_le_transfer (holder : Holder) :
    ledger token holder - amount ≤ after token holder := by
  rw [transfer_eq_some] at moved
  obtain ⟨⟨nonneg, -⟩, rfl⟩ := moved
  simp only [credit, true_and]
  split_ifs <;> omega

end

end Ledger

end EthosContracts.Lib
