/-
**What a call does.**

The results about runs read a call in three ways: its effect on vaults, payments and registrations
(`Effect`), the step of control it is (`Controlled`), and that it writes the storage of claims,
screening, waiting withdrawals and votes only if it is about them (`SideBooks`). `Outcome` puts the
three together, so that every call is run through once; `HasOutcome` says that a call ends in its
outcome if it succeeds.

* `Outcome.of_save`, `Outcome.of_setting`, `Outcome.of_payment`, `Outcome.of_disbursed`, … — the
  rules for a call that leaves the control of vaults alone. The others give their step of control.
-/

import EthosContracts.TtlVault.ControlStep

namespace EthosContracts.TtlVault

open Lib

/-- Everything the results need of a call, from its one execution. -/
structure Outcome (env : Env) (call : Call) (s t : State) : Prop where
  effect : s.Regular → Effect env call s t
  controlled : Controlled env call s t
  side : t.sideBooks call = s.sideBooks call

/-- The call has such an outcome, whenever it goes through. -/
def HasOutcome (env : Env) (s : State) (call : Call) : Prop :=
  (exec env call).wp s fun _ t => Outcome env call s t

/-- What the readings ask of the storage beside the vaults and the payments. -/
structure Rest where
  registry : Registry
  books : Books
  side : SideBooks

def State.rest (s : State) (call : Call) : Rest where
  registry := s.registry
  books := s.books
  side := s.sideBooks call

namespace Outcome

variable {env : Env} {call : Call} {s t : State} {id : VaultId} {v w : Vault}

theorem of_effect (effect : Effect env call s t) (unchanged : Unchanged s t)
    (rest : t.rest call = s.rest call) : Outcome env call s t :=
  ⟨fun _ => effect, .of_unchanged unchanged, congrArg Rest.side rest⟩

theorem count_of_rest (rest : t.rest call = s.rest call) : t.vaultCount = s.vaultCount :=
  congrArg Books.vaultCount (congrArg Rest.books rest)

theorem of_frame (vaults : t.vaults = s.vaults) (rest : t.rest call = s.rest call)
    (payouts : t.payouts = s.payouts) : Outcome env call s t :=
  .of_effect (.of_frame vaults (count_of_rest rest) (congrArg Rest.registry rest) payouts)
    (.of_frame vaults (congrArg Rest.books rest)) rest

theorem of_vaults (vaults : ∀ id v, s.vaults id = some v →
      ∃ w, t.vaults id = some w ∧ Change env s call id v w ∧ w.control = v.control)
    (absent : ∀ id, s.vaults id = none → t.vaults id = none) (rest : t.rest call = s.rest call)
    (payouts : ∃ paid, t.payouts = s.payouts ++ paid ∧ ∀ payout ∈ paid, Paid s call payout) :
    Outcome env call s t := by
  refine .of_effect (.of_vaults (fun id v found => ?_) absent (count_of_rest rest)
    (congrArg Rest.registry rest) payouts) (.of_vaults (fun id v found => ?_) absent
    (congrArg Rest.books rest)) rest
  · obtain ⟨w, written, change, -⟩ := vaults id v found
    exact ⟨w, written, change⟩
  · obtain ⟨w, written, -, control⟩ := vaults id v found
    exact ⟨w, written, control⟩

theorem of_registered (vaults : t.vaults = s.vaults) (books : t.books = s.books)
    (side : t.sideBooks call = s.sideBooks call) (payouts : t.payouts = s.payouts)
    (registers : Registers env call s t) : Outcome env call s t :=
  ⟨fun _ => .of_registered vaults (congrArg Books.vaultCount books) payouts registers,
    .of_unchanged (.of_frame vaults books), side⟩

variable (found : s.vaults id = some v) (vaults : t.vaults = Function.update s.vaults id (some w))
  (rest : t.rest call = s.rest call) (control : w.control = v.control)
include found vaults rest control

theorem of_save (payouts : t.payouts = s.payouts) (change : Change env s call id v w) :
    Outcome env call s t :=
  .of_effect
    (.of_save found vaults (count_of_rest rest) (congrArg Rest.registry rest) payouts change)
    (.of_save found vaults control (congrArg Rest.books rest)) rest

theorem of_setting (payouts : t.payouts = s.payouts) (locked : v.status = .locked)
    (deadline : w.deadline = v.deadline) : Outcome env call s t := by
  have status : w.status = v.status := congrArg (·.1.status) control
  exact of_save found vaults rest control payouts (.of_kept locked (status.trans locked) deadline)

theorem of_payment {token payee : Address} {amount : Int}
    (payouts : t.payouts = s.payouts ++ [⟨id, token, payee, amount⟩])
    (reason : v.status = .locked ∨ PaysOwner s id call ∨ Recorded s id v payee)
    (change : Change env s call id v w) : Outcome env call s t :=
  .of_effect (.of_payment found vaults (count_of_rest rest) (congrArg Rest.registry rest) payouts
    reason change) (.of_save found vaults control (congrArg Rest.books rest)) rest

theorem of_disbursed {payees : Address → Prop} {u u' : State} (disbursed : Disbursed id payees u u')
    (earlier : u.payouts = s.payouts) (payouts : t.payouts = u'.payouts)
    (reason : ∀ payee, payees payee →
      v.status = .locked ∨ PaysOwner s id call ∨ Recorded s id v payee)
    (change : Change env s call id v w) : Outcome env call s t :=
  .of_effect (.of_disbursed found vaults (count_of_rest rest) (congrArg Rest.registry rest) disbursed
    earlier payouts reason change) (.of_save found vaults control (congrArg Rest.books rest)) rest

end Outcome

end EthosContracts.TtlVault
