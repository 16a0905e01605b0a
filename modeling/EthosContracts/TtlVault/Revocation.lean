/-
**Passkeys that were removed or replaced.**

Which passkey a vault accepts is read from the list of its passkeys and, where the list is empty,
from the primary passkey in the vault. `remove_passkey` writes only the list and `rotate_passkey`
only the primary passkey.
-/

import EthosContracts.TtlVault.PasskeyControl
import EthosContracts.TtlVault.ControlTerms

namespace EthosContracts.TtlVault

open Lib Function List

/-! ### The property and its condition -/

/-- **A call registers a passkey** for the vault. -/
inductive Registration (s : State) (id : VaultId) (passkeyHash : Hash) : Call → Prop
  | added {caller} : Registration s id passkeyHash (.record (.addPasskey id caller passkeyHash))
  | rotated {caller old} : Registration s id passkeyHash (.rotatePasskey id caller old passkeyHash)
  | recovered {code} : Registration s id passkeyHash (.recoverWithCode id code passkeyHash)
  | granted {caller request} (stored : (s.keys id).request = some request)
      (named : request.newPasskeyHash = passkeyHash)
      (enough : request.requiredContacts ≤ (request.approvedContacts ++ [caller]).length) :
      Registration s id passkeyHash (.record (.approvePasskeyRecovery id caller))

/-- No call among these registers the passkey. -/
def Unregistered (id : VaultId) (passkeyHash : Hash) (events : History) : Prop :=
  ∀ event ∈ events, ¬ Registration event.before id passkeyHash event.input.call

theorem Unregistered.nil {id : VaultId} {passkeyHash : Hash} : Unregistered id passkeyHash [] := by
  intro event member
  cases member

/-- **Revocation works** along a run that ends in `s`. -/
structure Revokes (history : History) (s : State) : Prop where
  removed : ∀ earlier event later id caller passkeyHash, history = earlier ++ event :: later →
    event.input.call = .record (.removePasskey id caller passkeyHash) →
    Unregistered id passkeyHash later → ∀ env, ¬ Acceptable s id env passkeyHash
  replaced : ∀ earlier event later id caller old new, history = earlier ++ event :: later →
    event.input.call = .rotatePasskey id caller old new → old ≠ new →
    (∀ env, (event.after.keys id).Unblocked env.now new → Acceptable event.after id env new) ∧
      (Unregistered id old later → ∀ env, ¬ Acceptable s id env old)

def Call.removal : Call → Option (VaultId × Hash)
  | .record (.removePasskey id _ passkeyHash) => some (id, passkeyHash)
  | _ => none

def Call.rotation : Call → Option (VaultId × Hash × Hash)
  | .rotatePasskey id _ old new => some (id, old, new)
  | _ => none

/-- The condition on one step: the list of passkeys decides after it as the call says. -/
structure KeepsOne (s : State) (call : Call) : Prop where
  removal : ∀ removal ∈ call.removal, ∃ other ∈ (s.keys removal.1).passkeys, other ≠ removal.2
  rotation : ∀ rotation ∈ call.rotation, rotation.2.1 ≠ rotation.2.2 →
    (s.keys rotation.1).passkeys = [] ∨
      rotation.2.2 ∈ (s.keys rotation.1).passkeys ∧ rotation.2.1 ∉ (s.keys rotation.1).passkeys

/-! ### What is not registered stays so -/

section Steps

variable {env : Env} {call : Call} {s t : State} {id : VaultId} {passkeyHash : Hash}

theorem KeyChange.unregistered {keys : VaultKeys} {v : Vault}
    (change : KeyChange env s call id keys)
    (counted : s.Counted) (found : s.vaults id = some v) (condition : KeepsOne s call)
    (other : ¬ Registration s id passkeyHash call) (before : ¬ (s.keys id).Registers passkeyHash) :
    ¬ keys.Registers passkeyHash := by
  -- a longer list, whose last entry is another passkey
  have longer : ∀ {keys : VaultKeys} {last : Hash}, keys.passkeys = (s.keys id).passkeys ++ [last] →
      last ≠ passkeyHash → ¬ keys.Registers passkeyHash := by
    intro keys last list ne registered
    rcases VaultKeys.registers_append list registered with old | new
    · exact before old
    · exact ne new.symm
  cases change with
  | opened =>
    rw [counted _ (Nat.lt_succ_self _)] at found
    cases found
  | added =>
    refine longer rfl fun same => other ?_
    rw [same]
    exact .added
  | removed located signed =>
    rename_i caller target u
    -- the removal leaves an entry, so the list decides before and after it
    obtain ⟨left, member, ne⟩ := condition.removal _ rfl
    have stays : left ∈ (s.keys id).passkeys.filter (· ≠ target) :=
      mem_filter.mpr ⟨member, decide_eq_true ne⟩
    rw [VaultKeys.registers_of_nonempty (ne_nil_of_mem stays)]
    rw [VaultKeys.registers_of_nonempty (ne_nil_of_mem member)] at before
    exact fun listed => before (mem_of_mem_filter listed)
  | rotated located signed =>
    rename_i caller old new u
    by_cases empty : (s.keys id).passkeys = []
    · rw [VaultKeys.Registers, if_pos empty]
      intro registered
      have same : new = passkeyHash := registered new rfl
      rw [same] at other
      exact other .rotated
    · rw [VaultKeys.Registers, if_neg empty] at before ⊢
      exact before
  | granted named contact signed stored new enough =>
    exact longer rfl fun same => other (.granted stored same enough)
  | recovered located stored =>
    rename_i code proof u
    rw [VaultKeys.registers_of_nonempty (cons_ne_nil _ _)]
    intro listed
    rw [mem_singleton.mp listed] at other
    exact other .recovered
  | assessed | escrowed | returned | reclaimed | initiated | supported | coded => exact before

/-- The vault exists and the passkey is not registered for it. -/
def State.Rejects (s : State) (id : VaultId) (passkeyHash : Hash) : Prop :=
  (∃ v, s.vaults id = some v) ∧ ¬ (s.keys id).Registers passkeyHash

theorem State.Rejects.not_acceptable (rejects : s.Rejects id passkeyHash) :
    ¬ Acceptable s id env passkeyHash := by
  rw [acceptable_iff]
  exact fun accepted => rejects.2 accepted.2.1

theorem unregistered_step {host : Host} {input : Invocation} (regular : s.Regular)
    (stepped : step host s input t) (condition : KeepsOne s input.call)
    (other : ¬ Registration s id passkeyHash input.call) (before : s.Rejects id passkeyHash) :
    t.Rejects id passkeyHash := by
  have controlled := step_controlled stepped
  obtain ⟨⟨v, found⟩, unregistered⟩ := before
  obtain ⟨w, written, -⟩ := controlled.terms regular.counted found
  refine ⟨⟨w, written⟩, ?_⟩
  rcases controlled.keys.at id with same | change
  · rw [same]
    exact unregistered
  · exact change.unregistered regular.counted found condition other unregistered

theorem unregistered_run {host : Host} {later : History} (run : ContractRun host s later t)
    (regular : s.Regular) (conditions : ∀ event ∈ later, KeepsOne event.before event.input.call)
    (others : Unregistered id passkeyHash later) (before : s.Rejects id passkeyHash) :
    t.Rejects id passkeyHash := by
  refine regular_invariant run regular (·.Rejects id passkeyHash)
    (fun u input => KeepsOne u input.call ∧ ¬ Registration u id passkeyHash input.call) before
    (fun u input w regular rejects allowed stepped => ?_)
    fun event member => ⟨conditions event member, others event member⟩
  exact unregistered_step regular stepped allowed.1 allowed.2 rejects

end Steps

/-! ### Removal and rotation -/

section Calls

variable (env : Env) (s : State) (id : VaultId) (caller : Address)

theorem removePasskey_keys (passkeyHash : Hash) :
    (removePasskey env id caller passkeyHash).wp s fun _ t =>
      (∃ v, t.vaults id = some v) ∧
        (t.keys id).passkeys = (s.keys id).passkeys.filter (· ≠ passkeyHash) := by
  simp only [removePasskey, setVaultPasskeys, wp_rules]
  intro _ v found _ _ _
  refine ⟨⟨v, found⟩, ?_⟩
  simp only [State.keys, update_self, filter_map]
  rfl

theorem rotatePasskey_keys (old new : Hash) :
    (rotatePasskey env id caller old new).wp s fun _ t =>
      (∃ v, t.vaults id = some v) ∧ t.keys id = { s.keys id with primary := some new } := by
  simp only [rotatePasskey, wp_rules]
  intro _ v found _ _ _
  refine ⟨⟨_, update_self ..⟩, ?_⟩
  simp only [State.keys, update_self, Option.bind_some]

end Calls

section Events

variable {host : Host} {event : VaultEvent} {id : VaultId} {caller : Address}

variable (stepped : step host event.before event.input event.after)
include stepped

theorem removed_rejects {passkeyHash : Hash}
    (called : event.input.call = .record (.removePasskey id caller passkeyHash))
    (condition : KeepsOne event.before event.input.call) : event.after.Rejects id passkeyHash := by
  have ran := stepped.2
  rw [called] at ran condition
  obtain ⟨present, list⟩ :=
    removePasskey_keys event.input.env event.before id caller passkeyHash _ _ ran
  obtain ⟨left, member, ne⟩ := condition.removal _ rfl
  have stays : left ∈ (event.after.keys id).passkeys := by
    rw [list]
    exact mem_filter.mpr ⟨member, decide_eq_true ne⟩
  refine ⟨present, ?_⟩
  rw [VaultKeys.registers_of_nonempty (ne_nil_of_mem stays), list]
  intro listed
  exact of_decide_eq_true (mem_filter.mp listed).2 rfl

theorem rotated_registers {old new : Hash}
    (called : event.input.call = .rotatePasskey id caller old new) (ne : old ≠ new)
    (condition : KeepsOne event.before event.input.call) :
    (event.after.keys id).Registers new ∧ event.after.Rejects id old := by
  have ran := stepped.2
  rw [called] at ran condition
  obtain ⟨present, keys⟩ := rotatePasskey_keys event.input.env event.before id caller old new _ _ ran
  rw [State.Rejects, keys]
  rcases condition.rotation _ rfl ne with empty | ⟨replaced, gone⟩
  · simp only [VaultKeys.Registers, if_pos empty, Option.mem_some_iff, forall_eq']
    exact ⟨trivial, present, ne.symm⟩
  · have nonempty : (event.before.keys id).passkeys ≠ [] := ne_nil_of_mem replaced
    simp only [VaultKeys.Registers, if_neg nonempty]
    exact ⟨replaced, present, gone⟩

end Events

/-- **Revocation works** in every run whose steps meet the condition. -/
theorem revokes_of_keepsOne {host : Host} {xlmToken admin : Address}
    {ledger : Ledger Address Address} {history : History} {s : State}
    (run : ContractRun host (initialState xlmToken admin ledger) history s)
    (keeps : ∀ event ∈ history, KeepsOne event.before event.input.call) : Revokes history s := by
  have regular := initialState_regular xlmToken admin ledger
  -- what holds after an event, and in the run that follows it
  have following : ∀ earlier event later, history = earlier ++ event :: later →
      step host event.before event.input event.after ∧
      KeepsOne event.before event.input.call ∧
      ∀ id passkeyHash, event.after.Rejects id passkeyHash → Unregistered id passkeyHash later →
        s.Rejects id passkeyHash := by
    intro earlier event later whole
    obtain ⟨middle, before, rest⟩ := run.split earlier (event :: later) whole
    obtain ⟨rfl, stepped, after⟩ := rest.uncons
    rw [whole] at keeps
    refine ⟨stepped, keeps event mem_append_cons_self, fun id passkeyHash rejects others => ?_⟩
    refine unregistered_run after (step_regular (run_regular before regular) stepped) ?_ others rejects
    exact fun next member => keeps next (mem_append_right _ (mem_cons_of_mem _ member))
  refine ⟨fun earlier event later id caller passkeyHash whole called others env => ?_,
    fun earlier event later id caller old new whole called ne => ?_⟩
  · obtain ⟨stepped, condition, kept⟩ := following earlier event later whole
    exact (kept id passkeyHash (removed_rejects stepped called condition) others).not_acceptable
  · obtain ⟨stepped, condition, kept⟩ := following earlier event later whole
    obtain ⟨registered, rejects⟩ := rotated_registers stepped called ne condition
    refine ⟨fun env unblocked => ?_, fun others env => (kept id old rejects others).not_acceptable⟩
    exact acceptable_iff.mpr ⟨rejects.1, registered, unblocked⟩

def recoveredPasskey : Scenario :=
  [(1, ⟨3⟩, .createVault ⟨3⟩ ⟨4⟩ 1000000 none),
    (2, ⟨3⟩, .generateRecoveryCode 1 [7]),
    (3, ⟨3⟩, .recoverWithCode 1 [7] [1])]

def carefulRotation : Scenario :=
  recoveredPasskey ++
    [(4, ⟨3⟩, .record (.addPasskey 1 ⟨3⟩ [2])),
      (5, ⟨3⟩, .record (.removePasskey 1 ⟨3⟩ [1])),
      (6, ⟨3⟩, .rotatePasskey 1 ⟨3⟩ [1] [2])]

/-- Both calls meet the condition, and the run revokes as it should. -/
theorem revokes_carefulRotation :
    ((played carefulRotation).2.keys 1).passkeys = [[2]] ∧
      ((played carefulRotation).2.keys 1).primary = some [2] ∧
      Revokes (played carefulRotation).1 (played carefulRotation).2 := by
  have removals : ∀ event ∈ (played carefulRotation).1, ∀ removal ∈ event.input.call.removal,
        ∃ other ∈ (event.before.keys removal.1).passkeys, other ≠ removal.2 := by decide +kernel
  have rotations : ∀ event ∈ (played carefulRotation).1,
      ∀ rotation ∈ event.input.call.rotation, rotation.2.1 ≠ rotation.2.2 →
        (event.before.keys rotation.1).passkeys = [] ∨
          rotation.2.2 ∈ (event.before.keys rotation.1).passkeys ∧
            rotation.2.1 ∉ (event.before.keys rotation.1).passkeys := by decide +kernel
  refine ⟨by decide +kernel, by decide +kernel, ?_⟩
  exact revokes_of_keepsOne (plainInputs_run carefulRotation) fun event member =>
    ⟨removals event member, rotations event member⟩

def lastRemoval : VaultEvent :=
  nextEvent fundedState (plainInputs recoveredPasskey)
    ⟨plainEnv 4 [⟨3⟩], .record (.removePasskey 1 ⟨3⟩ [1])⟩

def listedRotation : VaultEvent :=
  nextEvent fundedState (plainInputs recoveredPasskey)
    ⟨plainEnv 4 [⟨3⟩], .rotatePasskey 1 ⟨3⟩ [1] [2]⟩

/-- The removed passkey is still acceptable, as the primary one; and so is the rotated one, which is
still in the list, while the new one is not. -/
theorem recoveredPasskey_not_revokes :
    PlainRun ((played recoveredPasskey).1 ++ [lastRemoval]) lastRemoval.after ∧
      ¬ Revokes ((played recoveredPasskey).1 ++ [lastRemoval]) lastRemoval.after ∧
    PlainRun
        ((played recoveredPasskey).1 ++ [listedRotation])
        listedRotation.after ∧
      Acceptable listedRotation.after 1 (plainEnv 5 [⟨3⟩]) [1] ∧
      ¬ Acceptable listedRotation.after 1 (plainEnv 5 [⟨3⟩]) [2] ∧
      ¬ Revokes ((played recoveredPasskey).1 ++ [listedRotation]) listedRotation.after := by
  refine ⟨.snoc (plainInputs_run recoveredPasskey) ⟨rfl, rfl⟩, fun revokes => ?_,
    .snoc (plainInputs_run recoveredPasskey) ⟨rfl, rfl⟩, ⟨_, rfl, rfl⟩, ?_, fun revokes => ?_⟩
  · exact revokes.removed _ lastRemoval [] 1 ⟨3⟩ [1] rfl rfl .nil (plainEnv 5 [⟨3⟩]) ⟨_, rfl, rfl⟩
  · intro ⟨v, found, valid⟩
    cases found
    cases valid
  · have replaced := revokes.replaced _ listedRotation [] 1 ⟨3⟩ [1] [2] rfl rfl (by decide)
    exact replaced.2 .nil (plainEnv 5 [⟨3⟩]) ⟨_, rfl, rfl⟩

end EthosContracts.TtlVault
