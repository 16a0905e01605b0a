/-
**The audit log of the withdrawals** (`record_withdrawal_audit`).

`withdraw` and `batch_withdraw` log an attempt when it succeeds, and most refusals before they
return the error. The host undoes what a failed call has written, this entry too.
-/

import EthosContracts.TtlVault.BatchRefinement

namespace EthosContracts.TtlVault

open Lib Function List

/-- The calls that log their attempts. -/
inductive WithdrawalCall
  | withdraw (id : VaultId) (caller : Address) (amount : Int)
  | batchWithdraw (vaultIds : List VaultId) (amounts : List Int) (caller : Address)

/-- What the log is to say of an attempt. -/
structure Attempt where
  timestamp : Nat
  caller : Address
  success : Bool

def WithdrawalAuditEntry.attempt (entry : WithdrawalAuditEntry) : Attempt :=
  ⟨entry.timestamp, entry.caller, entry.success⟩

namespace WithdrawalCall

variable (env : Env) (s : State)

def exec : WithdrawalCall → Contract Unit
  | .withdraw id caller amount => TtlVault.withdraw env id caller amount
  | .batchWithdraw vaultIds amounts caller => TtlVault.batchWithdraw env vaultIds amounts caller

def caller : WithdrawalCall → Address
  | .withdraw _ caller _ => caller
  | .batchWithdraw _ _ caller => caller

/-- The named vaults, once for each attempt. -/
def vaultIds : WithdrawalCall → List VaultId
  | .withdraw id .. => [id]
  | .batchWithdraw vaultIds .. => vaultIds

end WithdrawalCall

/-! ### Runs of calls, failed ones included -/

/-- The attempts on a vault. -/
def attempts (id : VaultId) (s : State) : List (Env × WithdrawalCall) → List Attempt
  | [] => []
  | (env, call) :: rest =>
    (call.vaultIds.filter (· = id)).map (fun _ => ⟨env.now, call.caller, (call.exec env s).isOk⟩) ++
      attempts id ((call.exec env).after s) rest

section Checks

variable {env : Env} {caller token : Address} {s : State} {entries : List (VaultId × Int)}

end Checks

/-! ### The log -/

section Log

variable (env : Env) (id : VaultId) (s : State)

variable {id s} {calls : List (Env × WithdrawalCall)}

end Log

end EthosContracts.TtlVault
