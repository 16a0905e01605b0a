/-
**Who controls a vault.**

The results about ownership, beneficiaries, signers and passkeys read four parts of the state: the
tenure, the signers with their proposals, the passkeys, and the hibernation entries. By
`Unchanged.of_save` and `Unchanged.of_frame` a call is seen to leave them alone.
-/

import EthosContracts.Lib.Index
import EthosContracts.TtlVault.Effect

namespace EthosContracts.TtlVault

open Lib Function

/-! ### The parts -/

/-- What a vault says about who controls it. -/
structure Terms where
  owner : Address
  beneficiary : Address
  checkInInterval : Nat
  status : ReleaseStatus
  beneficiaries : List Address

def Vault.terms (vault : Vault) : Terms where
  owner := vault.owner
  beneficiary := vault.beneficiary
  checkInInterval := vault.checkInInterval
  status := vault.status
  beneficiaries := vault.beneficiaries.map (·.address)

/-- The terms of every vault, the indexes over them, and the requests that will change them. -/
structure Tenure where
  terms : VaultId → Option Terms
  vaultCount : Nat
  ownerVaults : Address → List VaultId
  beneficiaryVaults : Address → List VaultId
  vaultDuplicate : Address → Address → Nat → Option VaultId
  pendingOwnership : VaultId → Option OwnershipTransferRequest
  pendingBeneficiaryUpdate : VaultId → Option PendingBeneficiaryUpdate
  rotationSchedule : VaultId → Option (List BeneficiaryRotationEntry)

def State.tenure (s : State) : Tenure where
  terms id := (s.vaults id).map Vault.terms
  vaultCount := s.vaultCount
  ownerVaults := s.index.ownerVaults
  beneficiaryVaults := s.index.beneficiaryVaults
  vaultDuplicate := s.index.vaultDuplicate
  pendingOwnership := s.beneficiaries.pendingOwnership
  pendingBeneficiaryUpdate := s.beneficiaries.pendingBeneficiaryUpdate
  rotationSchedule := s.beneficiaries.rotationSchedule

/-- The passkeys of a vault, what blocks one, and what may add one. -/
structure VaultKeys where
  passkeys : List Hash
  primary : Option Hash
  compromised : List Hash
  escrow : Hash → Option PasskeyEscrowRecord
  expiry : Hash → Option Nat
  request : Option PasskeyRecoveryRequest
  contacts : Option (List Address)
  codeHash : Option Hash

def State.keys (s : State) (id : VaultId) : VaultKeys where
  passkeys := (s.checkIns.vaultPasskeys id).map (·.hash)
  primary := (s.vaults id).bind (·.passkeyHash)
  compromised := s.checkIns.compromisedPasskeys id
  escrow := s.checkIns.passkeyEscrow id
  expiry := s.checkIns.passkeyExpiry id
  request := s.checkIns.passkeyRecoveryRequest id
  contacts := s.checkIns.recoveryContacts id
  codeHash := s.checkIns.recoveryCodeHash id

/-! ### What most calls leave alone -/

/-- The passkeys are read from the storage about keys and the vault records. -/
theorem keys_eq {s t : State} (keyBooks : t.keyBooks = s.keyBooks)
    (primary : ∀ id, (t.vaults id).bind (·.passkeyHash) = (s.vaults id).bind (·.passkeyHash)) :
    t.keys = s.keys := by
  funext id
  simp only [State.keyBooks, KeyBooks.mk.injEq] at keyBooks
  obtain ⟨passkeys, compromised, escrow, expiry, request, contacts, code⟩ := keyBooks
  rw [State.keys, State.keys, primary id, passkeys, compromised, escrow, expiry, request, contacts,
    code]

/-- What of a vault record concerns its control. -/
def Vault.control (vault : Vault) : Terms × Option Bytes := (vault.terms, vault.passkeyHash)

/-- Nothing about the control of vaults differs, whatever else does. -/
structure Unchanged (s t : State) : Prop where
  books : t.books = s.books
  vaults : ∀ id, (t.vaults id).map Vault.control = (s.vaults id).map Vault.control

namespace Unchanged

variable {s t u : State}

theorem refl : Unchanged s s := ⟨rfl, fun _ => rfl⟩

theorem trans (first : Unchanged s t) (second : Unchanged t u) : Unchanged s u :=
  ⟨second.books.trans first.books, fun id => (second.vaults id).trans (first.vaults id)⟩

/-- A call that writes no vault and none of the books. -/
theorem of_frame (vaults : t.vaults = s.vaults) (books : t.books = s.books) : Unchanged s t :=
  ⟨books, fun id => by rw [vaults]⟩

/-- A call that saves one vault with the same terms and passkey. -/
theorem of_save {id : VaultId} {v w : Vault} (found : s.vaults id = some v)
    (vaults : t.vaults = update s.vaults id (some w)) (control : w.control = v.control)
    (books : t.books = s.books) : Unchanged s t := by
  refine ⟨books, fun other => ?_⟩
  rw [vaults]
  by_cases same : other = id
  · rw [same, update_self, found, Option.map_some, Option.map_some, control]
  · rw [update_of_ne same]

/-- A call that saves several. -/
theorem of_vaults
    (vaults : ∀ id v, s.vaults id = some v → ∃ w, t.vaults id = some w ∧ w.control = v.control)
    (absent : ∀ id, s.vaults id = none → t.vaults id = none) (books : t.books = s.books) :
    Unchanged s t := by
  refine ⟨books, fun id => ?_⟩
  cases found : s.vaults id with
  | none => rw [absent id found]
  | some v =>
    obtain ⟨w, written, control⟩ := vaults id v found
    rw [written, Option.map_some, Option.map_some, control]

section

variable (unchanged : Unchanged s t)
include unchanged

theorem terms (id : VaultId) : (t.vaults id).map Vault.terms = (s.vaults id).map Vault.terms := by
  have same := congrArg (Option.map Prod.fst) (unchanged.vaults id)
  rwa [Option.map_map, Option.map_map] at same

/-- An unchanged state has the tenure it had. -/
theorem tenure : t.tenure = s.tenure := by
  have terms : t.tenure.terms = s.tenure.terms := funext unchanged.terms
  have books := unchanged.books
  simp only [State.books, Books.mk.injEq] at books
  obtain ⟨count, owners, beneficiaries, duplicates, ownership, update, rotation, -⟩ := books
  calc t.tenure = { s.tenure with terms := t.tenure.terms } := by
        rw [State.tenure, count, owners, beneficiaries, duplicates, ownership, update, rotation]
        rfl
    _ = s.tenure := by rw [terms]

theorem multiSig : t.multiSig = s.multiSig :=
  congrArg Books.multiSig unchanged.books

theorem hibernation : t.checkIns.hibernation = s.checkIns.hibernation :=
  congrArg Books.hibernation unchanged.books

/-- The passkey in the vault record. -/
theorem primary (id : VaultId) :
    (t.vaults id).bind (·.passkeyHash) = (s.vaults id).bind (·.passkeyHash) := by
  have same := congrArg (·.bind Prod.snd) (unchanged.vaults id)
  rw [Option.bind_map, Option.bind_map] at same
  exact same

theorem isSome (id : VaultId) : (t.vaults id).isSome = (s.vaults id).isSome := by
  have same := congrArg Option.isSome (unchanged.vaults id)
  rwa [Option.isSome_map, Option.isSome_map] at same

theorem keys : t.keys = s.keys :=
  keys_eq (congrArg Books.keyBooks unchanged.books) unchanged.primary

end

end Unchanged

end EthosContracts.TtlVault
