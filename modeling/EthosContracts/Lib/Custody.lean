/-
**Custody: accounts in several tokens, kept in one pot.**
-/

import Mathlib.Algebra.BigOperators.Group.Finset.Basic
import Mathlib.Algebra.Order.BigOperators.Group.Finset
import Mathlib.Algebra.Order.Ring.Int

namespace EthosContracts.Lib

open Function

/-- A balance in one token. -/
structure Account (Token : Type) where
  token : Token
  balance : Int

section Custody

variable {Id Token : Type} [DecidableEq Token]

/-- What a possibly missing account is worth in a token. -/
def Account.worth (token : Token) : Option (Account Token) → Int
  | some account => if account.token = token then account.balance else 0
  | none => 0

theorem Account.worth_some (token : Token) (account : Account Token) :
    Account.worth token (some account) = if account.token = token then account.balance else 0 :=
  rfl

/-- No balance is negative, and any finite set of accounts is worth at most what the pot holds of
each token. This bounds the sum over all accounts without naming the set of all of them. -/
structure Backed (accounts : Id → Option (Account Token)) (holdings : Token → Int) : Prop where
  nonneg : ∀ id account, accounts id = some account → 0 ≤ account.balance
  covered : ∀ token, ∀ ids : Finset Id,
    ∑ id ∈ ids, Account.worth token (accounts id) ≤ holdings token

variable {accounts : Id → Option (Account Token)} {holdings after : Token → Int}

section

variable (backed : Backed accounts holdings)
include backed

theorem Backed.worth_nonneg (token : Token) (id : Id) : 0 ≤ Account.worth token (accounts id) := by
  cases found : accounts id with
  | none => simp [Account.worth]
  | some account =>
    have nonneg := backed.nonneg id account found
    simp only [Account.worth]
    split_ifs <;> omega

theorem Backed.covers {id : Id} {account : Account Token} (found : accounts id = some account) :
    account.balance ≤ holdings account.token := by
  have alone := backed.covered account.token {id}
  rwa [Finset.sum_singleton, found, Account.worth_some, if_pos rfl] at alone

theorem Backed.mono (more : ∀ token, holdings token ≤ after token) : Backed accounts after :=
  ⟨backed.nonneg, fun token ids => (backed.covered token ids).trans (more token)⟩

end

variable [DecidableEq Id]

/-- **Changing one account.** The holdings may fall by at most what the account gives up, and must
rise by what it is credited. -/
theorem Backed.set (backed : Backed accounts holdings) {id : Id} {new : Account Token}
    (nonneg : 0 ≤ new.balance)
    (matched : ∀ token, holdings token + (Account.worth token (some new) -
      Account.worth token (accounts id)) ≤ after token) :
    Backed (update accounts id (some new)) after := by
  refine ⟨?_, ?_⟩
  · intro other account found
    by_cases same : other = id
    · subst same
      rw [update_self] at found
      cases found
      exact nonneg
    · rw [update_of_ne same] at found
      exact backed.nonneg other account found
  · intro token ids
    -- a set without the account is compared through the set with it
    have whole := backed.covered token (insert id (ids.erase id))
    have rest : ∑ other ∈ ids.erase id, Account.worth token (update accounts id (some new) other) =
        ∑ other ∈ ids.erase id, Account.worth token (accounts other) := by
      refine Finset.sum_congr rfl fun other member => ?_
      rw [update_of_ne (Finset.ne_of_mem_erase member)]
    rw [Finset.sum_insert (Finset.notMem_erase id ids)] at whole
    have bound := matched token
    have pos : 0 ≤ Account.worth token (some new) := by
      rw [Account.worth_some]
      split_ifs <;> omega
    by_cases member : id ∈ ids
    · rw [← Finset.insert_erase member, Finset.sum_insert (Finset.notMem_erase id ids), rest,
        update_self]
      omega
    · rw [Finset.erase_eq_of_notMem member] at rest whole
      rw [rest]
      omega

theorem Backed.open (backed : Backed accounts holdings) (id : Id) (token : Token) :
    Backed (update accounts id (some ⟨token, 0⟩)) holdings := by
  refine backed.set (le_refl 0) fun other => ?_
  have nonneg := backed.worth_nonneg other id
  simp only [Account.worth_some, ite_self]
  omega

end Custody

end EthosContracts.Lib
