/-
**The indexes over the vaults.**

The contract keeps three indexes by hand: the vaults of an owner, the vaults of a beneficiary, and
the vault that was created for an owner, a beneficiary and an interval.

They are instances of the rules for indexes (`Mirrors`, `Marks`).
-/

import EthosContracts.TtlVault.ControlTerms

namespace EthosContracts.TtlVault

open Lib Function List

/-! ### Keys of the vaults -/

namespace Tenure

variable {κ : Type} {key : Terms → Option κ} {tenure : Tenure} {id : VaultId} {old new : Terms}

def keyed (tenure : Tenure) (key : Terms → Option κ) (id : VaultId) : Option κ :=
  (tenure.terms id).bind key

theorem keyed_of_terms (stored : tenure.terms id = some old) : tenure.keyed key id = key old := by
  rw [keyed, stored, Option.bind_some]

theorem keyed_of_absent (absent : tenure.terms id = none) : tenure.keyed key id = none := by
  rw [keyed, absent, Option.bind_none]

theorem keyed_iff {s : State} {k : κ} : s.tenure.keyed key id = some k ↔
    ∃ v, s.vaults id = some v ∧ key v.terms = some k := by
  constructor
  · intro keyed
    obtain ⟨terms, stored, has⟩ := Option.bind_eq_some_iff.mp keyed
    obtain ⟨v, found, rfl⟩ := terms_eq_some.mp stored
    exact ⟨v, found, has⟩
  · rintro ⟨v, found, has⟩
    rw [keyed_of_terms (terms_of_found found), has]

theorem keyed_set : (tenure.set id new).keyed key = update (tenure.keyed key) id (key new) := by
  funext other
  by_cases same : other = id
  · rw [same, update_self, keyed_of_terms set_terms_self]
  · rw [update_of_ne same, keyed, keyed, set_terms_of_ne same]

theorem keyed_set_same (stored : tenure.terms id = some old) (same : key new = key old) :
    (tenure.set id new).keyed key = tenure.keyed key := by
  have here : tenure.keyed key id = key new := by rw [keyed_of_terms stored, same]
  rw [keyed_set, ← here, update_eq_self]

end Tenure

/-! ### Owners and beneficiaries -/

/-- The party under whom a vault is listed: its owner, or its beneficiary. -/
def Terms.key (party : Terms → Address) (terms : Terms) : Option Address :=
  if terms.status = .cancelled then none else some (party terms)

theorem Terms.key_iff {party : Terms → Address} {terms : Terms} {address : Address} :
    terms.key party = some address ↔ party terms = address ∧ terms.status ≠ .cancelled := by
  rw [Terms.key, Option.ite_none_left_eq_some, Option.some.injEq, and_comm]

/-- The lists of owners and beneficiaries hold exactly the vaults that are not cancelled. -/
def State.IndexesMirror (s : State) : Prop :=
  ∀ address,
    (s.index.ownerVaults address).Nodup ∧
    (∀ id, id ∈ s.index.ownerVaults address ↔
      ∃ v, s.vaults id = some v ∧ v.owner = address ∧ v.status ≠ .cancelled) ∧
    (s.index.beneficiaryVaults address).Nodup ∧
    ∀ id, id ∈ s.index.beneficiaryVaults address ↔
      ∃ v, s.vaults id = some v ∧ v.beneficiary = address ∧ v.status ≠ .cancelled

/-- The condition: no missed acceptance is refunded, and a cancelled vault keeps its owner and
beneficiary. -/
structure IndexesKept (env : Env) (s : State) (call : Call) : Prop where
  accepted : ∀ id ∈ call.releases,
    acceptanceMissed env (s.beneficiaries.conditionalAcceptance id) = false
  cancelled : ∀ id v, s.vaults id = some v → v.status = .cancelled →
    (∀ caller, call ≠ .applyBeneficiaryUpdate id caller) ∧
      executedOperation s id call ≠ some .updateBeneficiary ∧
      executedOperation s id call ≠ some .transferOwnership

/-- An index of the vaults by one of their parties. -/
abbrev Tenure.Lists (tenure : Tenure) (party : Terms → Address)
    (index : Address → List VaultId) : Prop :=
  Mirrors index (tenure.keyed (Terms.key party))

namespace Tenure.Lists

variable {tenure : Tenure} {party : Terms → Address} {index : Address → List VaultId} {id : VaultId}
  {old new : Terms} (lists : tenure.Lists party index)
include lists

theorem opened (absent : tenure.terms id = none) (live : new.status ≠ .cancelled) :
    (tenure.set id new).Lists party (Index.add index (party new) id) := by
  rw [Lists, keyed_set, show new.key party = some (party new) from if_neg live]
  exact lists.add (keyed_of_absent absent)

variable (stored : tenure.terms id = some old)
include stored

theorem kept (same : new.key party = old.key party) : (tenure.set id new).Lists party index := by
  rw [Lists, keyed_set_same stored same]
  exact lists

theorem moved (new : Terms) (live : old.status ≠ .cancelled) (same : new.status = old.status) :
    (tenure.set id new).Lists party (Index.move index (party old) (party new) id) := by
  have before : tenure.keyed (Terms.key party) id = some (party old) := by
    rw [keyed_of_terms stored]
    exact if_neg live
  rw [Lists, keyed_set, show new.key party = some (party new) from if_neg (same ▸ live)]
  exact lists.move before

theorem removed (cancelled : new.status = .cancelled) :
    (tenure.set id new).Lists party (Index.remove index (party old) id) := by
  rw [Lists, keyed_set, show new.key party = none from if_pos cancelled]
  refine lists.remove fun address listed => ?_
  rw [keyed_of_terms stored] at listed
  exact (Terms.key_iff.mp listed).1.symm

end Tenure.Lists

/-- Both lists mirror the terms. -/
structure Tenure.Indexed (tenure : Tenure) : Prop where
  owners : tenure.Lists (·.owner) tenure.ownerVaults
  beneficiaries : tenure.Lists (·.beneficiary) tenure.beneficiaryVaults

namespace Tenure.Indexed

variable {tenure : Tenure} {id : VaultId} {old new : Terms} (indexed : tenure.Indexed)
include indexed

theorem mark {entry : Option VaultId} : (tenure.mark new entry).Indexed :=
  ⟨indexed.owners, indexed.beneficiaries⟩

theorem opened (absent : tenure.terms (tenure.vaultCount + 1) = none)
    (live : new.status ≠ .cancelled) : (tenure.opened new).Indexed :=
  ⟨indexed.owners.opened absent live, indexed.beneficiaries.opened absent live⟩

variable (stored : tenure.terms id = some old)
include stored

theorem set (owner : new.key (·.owner) = old.key (·.owner))
    (beneficiary : new.key (·.beneficiary) = old.key (·.beneficiary)) : (tenure.set id new).Indexed :=
  ⟨indexed.owners.kept stored owner, indexed.beneficiaries.kept stored beneficiary⟩

theorem rename (live : old.status ≠ .cancelled) (beneficiary : Address) :
    (tenure.rename id old beneficiary).Indexed :=
  ⟨indexed.owners.kept stored rfl,
    indexed.beneficiaries.moved stored { old with beneficiary := beneficiary } live rfl⟩

theorem handOver (live : old.status ≠ .cancelled) (newOwner : Address) :
    (tenure.handOver id old newOwner).Indexed :=
  ⟨indexed.owners.moved stored { old with owner := newOwner } live rfl,
    indexed.beneficiaries.kept stored rfl⟩

theorem cancel : (tenure.cancel id old).Indexed :=
  ⟨indexed.owners.removed stored rfl, indexed.beneficiaries.removed stored rfl⟩

omit stored in
theorem absorb (sources : List VaultId) : (sources.foldl Tenure.absorb tenure).Indexed := by
  induction sources generalizing tenure with
  | nil => exact indexed
  | cons source rest ih =>
    refine ih ?_
    unfold Tenure.absorb
    cases stored : tenure.terms source with
    | none => exact indexed
    | some terms => exact indexed.cancel stored

end Tenure.Indexed

section Steps

variable {env : Env} {call : Call} {s : State} {id : VaultId} {v : Vault}

theorem ne_cancelled_of_locked (locked : v.status = .locked) : v.terms.status ≠ .cancelled := by
  show v.status ≠ .cancelled
  rw [locked]
  decide

theorem Tenure.Indexed.set_live {new : Terms} (indexed : s.tenure.Indexed)
    (found : s.vaults id = some v) (locked : v.status = .locked) (live : new.status ≠ .cancelled)
    (owner : new.owner = v.owner) (beneficiary : new.beneficiary = v.beneficiary) :
    (s.tenure.set id new).Indexed := by
  have before := ne_cancelled_of_locked locked
  refine indexed.set (terms_of_found found) ?_ ?_
  · rw [Terms.key, Terms.key, if_neg live, if_neg before, owner]
    rfl
  · rw [Terms.key, Terms.key, if_neg live, if_neg before, beneficiary]
    rfl

theorem keyed_rotated {κ : Type} {key : Terms → Option κ} {terms : VaultId → Option Terms}
    (each : ∀ id, terms id = s.tenure.terms id ∨ ∃ v addresses, s.vaults id = some v ∧
      v.status = .locked ∧ Scheduled s id addresses ∧
      terms id = some { v.terms with beneficiaries := addresses })
    (ignores : ∀ old addresses, key { old with beneficiaries := addresses } = key old) :
    ({ s.tenure with terms := terms } : Tenure).keyed key = s.tenure.keyed key := by
  funext id
  show (terms id).bind key = (s.tenure.terms id).bind key
  rcases each id with same | ⟨v, addresses, found, -, -, after⟩
  · rw [same]
  · rw [after, terms_of_found found, Option.bind_some, Option.bind_some, ignores]

theorem TenureStep.indexed {tenure : Tenure} (step : TenureStep env s call tenure)
    (counted : s.Counted) (indexed : s.tenure.Indexed) (condition : IndexesKept env s call) :
    tenure.Indexed := by
  have absent : s.tenure.terms (s.vaultCount + 1) = none :=
    terms_eq_none.mpr (counted _ (Nat.lt_succ_self _))
  cases step with
  | kept => exact indexed
  | created =>
    refine Tenure.Indexed.mark (indexed.opened absent ?_)
    exact nofun
  | copied copies locked =>
    refine indexed.opened absent ?_
    rw [locked]
    exact nofun
  | rotated each =>
    refine ⟨?_, ?_⟩
    · rw [Tenure.Lists, keyed_rotated each fun _ _ => rfl]
      exact indexed.owners
    · rw [Tenure.Lists, keyed_rotated each fun _ _ => rfl]
      exact indexed.beneficiaries
  | released found locked =>
    refine indexed.set_live found locked ?_ rfl rfl
    exact nofun
  | paid found locked =>
    refine Tenure.Indexed.mark (indexed.set_live found locked ?_ rfl rfl)
    exact nofun
  | refunded found locked releases missed =>
    cases missed.symm.trans (condition.accepted _ releases)
  | listed found locked =>
    exact indexed.set_live found locked (ne_cancelled_of_locked locked) rfl rfl
  | applied found =>
    have live := fun cancelled => (condition.cancelled _ _ found cancelled).1 _ rfl
    have renamed := indexed.rename (terms_of_found found) live
    exact ⟨(renamed _).owners, (renamed _).beneficiaries⟩
  | renamed found executed =>
    have live := fun cancelled => (condition.cancelled _ _ found cancelled).2.1 executed
    exact indexed.rename (terms_of_found found) live _
  | accepted found locked =>
    have moved := indexed.handOver (terms_of_found found) (ne_cancelled_of_locked locked)
    exact ⟨(moved _).owners, (moved _).beneficiaries⟩
  | transferred found taken mode =>
    refine indexed.handOver (terms_of_found found) ?_ _
    rcases mode with ⟨locked, -⟩ | executed
    · exact ne_cancelled_of_locked locked
    · exact fun cancelled => (condition.cancelled _ _ found cancelled).2.2 executed
  | cancelled found => exact (indexed.cancel (terms_of_found found)).mark
  | executedCancel found => exact indexed.cancel (terms_of_found found)
  | merged => exact indexed.absorb _
  | retimed found => exact indexed.set (terms_of_found found) rfl rfl
  | initiated | withdrawn | proposed | scheduled => exact ⟨indexed.owners, indexed.beneficiaries⟩

end Steps

section Mirror

variable {s : State}

theorem Tenure.Indexed.indexesMirror (indexed : s.tenure.Indexed) : s.IndexesMirror := by
  intro address
  refine ⟨indexed.owners.nodup address, fun id => ?_, indexed.beneficiaries.nodup address, fun id => ?_⟩
  · refine (indexed.owners.mem_iff address id).trans (Tenure.keyed_iff.trans ?_)
    exact exists_congr fun v => and_congr_right fun _ => Terms.key_iff
  · refine (indexed.beneficiaries.mem_iff address id).trans (Tenure.keyed_iff.trans ?_)
    exact exists_congr fun v => and_congr_right fun _ => Terms.key_iff

theorem initialState_indexed (xlmToken admin : Address) (ledger : Ledger Address Address) :
    (initialState xlmToken admin ledger).tenure.Indexed := by
  refine ⟨⟨fun _ => nodup_nil, fun k i => ?_⟩, ⟨fun _ => nodup_nil, fun k i => ?_⟩⟩
  · exact ⟨nofun, nofun⟩
  · exact ⟨nofun, nofun⟩

end Mirror

/-- **The indexes mirror the vaults** in every run whose steps meet the condition. -/
theorem indexesMirror_of_kept {host : Host} {xlmToken admin : Address}
    {ledger : Ledger Address Address} {history : History} {s : State}
    (run : ContractRun host (initialState xlmToken admin ledger) history s)
    (kept : ∀ event ∈ history, IndexesKept event.input.env event.before event.input.call) :
    s.IndexesMirror := by
  refine Tenure.Indexed.indexesMirror (regular_invariant run (initialState_regular ..)
    (·.tenure.Indexed) (fun u input => IndexesKept input.env u input.call) (initialState_indexed ..)
    (fun u input t regular indexed condition stepped => ?_) kept)
  exact (step_controlled stepped).tenure.indexed regular.counted indexed condition

def movedAndCancelled : Scenario :=
  [(1, ⟨3⟩, .createVault ⟨3⟩ ⟨4⟩ 1000000 none),
    (2, ⟨3⟩, .createVault ⟨3⟩ ⟨4⟩ 2000000 none),
    (3, ⟨3⟩, .transferOwnership 1 ⟨3⟩ ⟨5⟩),
    (4, ⟨3⟩, .cancelVault 2 ⟨3⟩)]

/-- The new owner has the first one, and both lists mirror the vaults. -/
theorem indexesMirror_movedAndCancelled :
    (played movedAndCancelled).2.index.ownerVaults ⟨5⟩ = [1] ∧
      (played movedAndCancelled).2.index.ownerVaults ⟨3⟩ = [] ∧
      (played movedAndCancelled).2.index.beneficiaryVaults ⟨4⟩ = [1] ∧
      (played movedAndCancelled).2.IndexesMirror := by
  refine ⟨by decide +kernel, by decide +kernel, by decide +kernel, ?_⟩
  refine indexesMirror_of_kept (plainInputs_run movedAndCancelled) fun event member => ?_
  obtain ⟨entry, listed, is⟩ := plainInputs_event member
  rw [is]
  simp only [movedAndCancelled, mem_cons, not_mem_nil, or_false] at listed
  refine ⟨fun id releases => ?_, fun id v found cancelled => ?_⟩
  · rcases listed with rfl | rfl | rfl | rfl <;> cases releases
  · rcases listed with rfl | rfl | rfl | rfl <;> exact ⟨nofun, nofun, nofun⟩

def lateUpdate : Scenario :=
  [(1, ⟨3⟩, .createVault ⟨3⟩ ⟨4⟩ 1000000 none),
    (2, ⟨3⟩, .record (.updateBeneficiary 1 ⟨3⟩ ⟨5⟩)),
    (3, ⟨3⟩, .cancelVault 1 ⟨3⟩),
    (86402, ⟨3⟩, .applyBeneficiaryUpdate 1 ⟨3⟩)]

/-- The cancelled vault is listed for its new beneficiary. -/
theorem lateUpdate_not_indexesMirror :
    PlainRun (played lateUpdate).1 (played lateUpdate).2 ∧
      ((played lateUpdate).2.vaults 1).map (·.status) = some .cancelled ∧
      (played lateUpdate).2.index.beneficiaryVaults ⟨5⟩ = [1] ∧
      ¬ (played lateUpdate).2.IndexesMirror := by
  refine ⟨plainInputs_run lateUpdate, rfl, rfl, fun mirror => ?_⟩
  obtain ⟨-, -, -, mem_iff⟩ := mirror ⟨5⟩
  obtain ⟨v, found, -, live⟩ := (mem_iff 1).mp (mem_singleton.mpr rfl)
  cases found
  exact live rfl

/-! ### Duplicates -/

/-- The owner, beneficiary and interval of a locked vault. -/
def Terms.duplicateKey (terms : Terms) : Option (Address × Address × Nat) :=
  if terms.status = .locked then some (terms.owner, terms.beneficiary, terms.checkInInterval)
  else none

theorem Terms.duplicateKey_iff {terms : Terms} {owner beneficiary : Address} {interval : Nat} :
    terms.duplicateKey = some (owner, beneficiary, interval) ↔
      terms.status = .locked ∧ terms.owner = owner ∧ terms.beneficiary = beneficiary ∧
        terms.checkInInterval = interval := by
  rw [Terms.duplicateKey, Option.ite_none_right_eq_some, Option.some.injEq, Prod.mk.injEq,
    Prod.mk.injEq]

def State.unmarked (s : State) (owner beneficiary : Address) (interval : Nat) : State :=
  { s with
    index.vaultDuplicate := fun o b i =>
      if o = owner ∧ b = beneficiary ∧ i = interval then none else s.index.vaultDuplicate o b i }

/-- Some locked vault has these terms. -/
def State.HasLocked (s : State) (owner beneficiary : Address) (interval : Nat) : Prop :=
  ∃ id v, s.vaults id = some v ∧ v.status = .locked ∧ v.owner = owner ∧
    v.beneficiary = beneficiary ∧ v.checkInInterval = interval

/-- **Duplicate detection is exact**: arguments that are valid but for the duplicate key are refused
as a duplicate exactly if there is a locked vault with them. -/
def State.DuplicatesExact (s : State) : Prop :=
  ∀ env owner beneficiary interval token,
    (createVault env owner beneficiary interval token
      (s.unmarked owner beneficiary interval)).isOk = true →
    (createVault env owner beneficiary interval token s = .error (.error .duplicateVault) ↔
      s.HasLocked owner beneficiary interval)

/-- The condition on one step: no vault is copied or merged, a release pays at once, and the owner,
beneficiary and interval of a locked vault stay. -/
structure MarkersKept (env : Env) (s : State) (call : Call) : Prop where
  copies : call.copies = false
  merges : ∀ targetId sources caller, call = .mergeVaults targetId sources caller → sources = []
  reveals : ∀ id proof claim, call ≠ .revealBeneficiary id proof claim
  releases : ∀ id ∈ call.releases, ∀ v ∈ s.vaults id,
    acceptanceMissed env (s.beneficiaries.conditionalAcceptance id) = false ∧
      hasVesting s id (rotatedVault env id s v) = false
  executes : ∀ id v operation, s.vaults id = some v → v.status = .locked →
    executedOperation s id call = some operation → operation = .withdraw
  applies : ∀ id caller, call = .applyBeneficiaryUpdate id caller → ∀ v ∈ s.vaults id,
    v.status = .locked → ∀ pending ∈ s.beneficiaries.pendingBeneficiaryUpdate id,
      pending.newBeneficiary = v.beneficiary
  transfers : ∀ id newOwner, call.newOwner s id = some newOwner → ∀ v ∈ s.vaults id,
    v.status = .locked → newOwner = v.owner
  retimes : ∀ id interval, call = .updateCheckInInterval id interval → ∀ v ∈ s.vaults id,
    v.status = .locked → interval = v.checkInInterval

section Create

variable (env : Env) (owner beneficiary : Address) (interval : Nat) (token : Option Address)

/-- What `create_vault` checks before it looks for a duplicate. -/
def vaultChecks : Contract Unit := do
  requireAuth env owner
  requireInitialized
  let admin ← loadAdmin
  require (owner ≠ admin) .adminCannotOwnVault
  assertNotBlacklisted owner
  require (interval ≠ 0) .invalidInterval
  assertIntervalInBounds interval
  require (owner ≠ beneficiary) .invalidBeneficiary
  requireAmlCompliant env beneficiary
  assertCompliant owner
  assertCompliant beneficiary

def openVault : Contract VaultId := do
  assertOwnerCapacity owner
  assertBeneficiaryCapacity beneficiary
  let token ← chooseToken token
  let count ← read (·.vaultCount)
  let id ← u64 (count + 1)
  saveVault id (newVault owner beneficiary token interval env.now)
  addOwnerVaultId owner id
  addBeneficiaryVaultId beneficiary id
  initPasskeys id
  write fun s => { s with vaultCount := id }
  setVaultDuplicate owner beneficiary interval (some id)
  pure id

theorem createVault_eq : createVault env owner beneficiary interval token = (do
    vaultChecks env owner beneficiary interval
    let duplicate ← read (·.index.vaultDuplicate owner beneficiary interval)
    require (duplicate.isNone) .duplicateVault
    openVault env owner beneficiary interval token) := by
  simp only [createVault, vaultChecks, openVault, bind_assoc]

theorem vaultChecks_unmarked {s : State} (ok : (vaultChecks env owner beneficiary interval).succeeds
      (s.unmarked owner beneficiary interval) fun _ _ => True) :
    (vaultChecks env owner beneficiary interval).succeeds s fun _ t => t = s := by
  simp only [vaultChecks, loadAdmin, assertIntervalInBounds, requireAmlCompliant,
    succeeds_rules] at ok ⊢
  obtain ⟨signed, initialized, admin, stored, rest⟩ := ok
  refine ⟨signed, initialized, admin, stored, ?_⟩
  simp only [and_true] at rest ⊢
  exact rest

variable {env owner beneficiary interval token}

theorem createVault_duplicate_iff {s : State}
    (valid : (createVault env owner beneficiary interval token
      (s.unmarked owner beneficiary interval)).isOk = true) :
    createVault env owner beneficiary interval token s = .error (.error .duplicateVault) ↔
      (s.index.vaultDuplicate owner beneficiary interval).isSome = true := by
  constructor
  · intro refused
    by_contra absent
    -- without a key there is nothing to take away
    have none : s.index.vaultDuplicate owner beneficiary interval = none :=
      Option.not_isSome_iff_eq_none.mp absent
    have same : s.unmarked owner beneficiary interval = s := by
      have keys : (s.unmarked owner beneficiary interval).index.vaultDuplicate =
          s.index.vaultDuplicate := by
        funext o b i
        show (if o = owner ∧ b = beneficiary ∧ i = interval then _ else _) = _
        split
        · rename_i equal
          obtain ⟨rfl, rfl, rfl⟩ := equal
          exact none.symm
        · rfl
      calc s.unmarked owner beneficiary interval
          = { s with index.vaultDuplicate :=
              (s.unmarked owner beneficiary interval).index.vaultDuplicate } := rfl
        _ = s := by rw [keys]
    rw [same, refused] at valid
    cases valid
  · intro stored
    have checks : (vaultChecks env owner beneficiary interval).succeeds
        (s.unmarked owner beneficiary interval) fun _ _ => True := by
      rw [Tx.isOk_iff_succeeds, createVault_eq, succeeds_bind] at valid
      exact valid.mono fun _ _ _ => trivial
    obtain ⟨_, t, ran, same⟩ := vaultChecks_unmarked env owner beneficiary interval checks
    rw [same] at ran
    have refuses : ¬ ((s.index.vaultDuplicate owner beneficiary interval).isNone = true) := by
      rw [Option.isNone_iff_eq_none]
      intro empty
      rw [empty] at stored
      cases stored
    rw [createVault_eq, bind_of_ok ran, bind_of_ok rfl]
    exact bind_of_error (if_neg refuses)

end Create

/-! ### The duplicate keys along a run -/

namespace Tenure

variable {tenure base : Tenure} {id : VaultId} {old new : Terms}

/-- The stored duplicate keys, as a function of one key. -/
def marker (tenure : Tenure) (key : Address × Address × Nat) : Option VaultId :=
  tenure.vaultDuplicate key.1 key.2.1 key.2.2

/-- **The stored duplicate keys are those of the locked vaults.** -/
def Marked (tenure : Tenure) : Prop := Marks tenure.marker (tenure.keyed Terms.duplicateKey)

theorem marker_mark (terms : Terms) (entry : Option VaultId) :
    (tenure.mark terms entry).marker = update tenure.marker
      (terms.owner, terms.beneficiary, terms.checkInInterval) entry := by
  funext key
  obtain ⟨o, b, i⟩ := key
  show (if o = terms.owner ∧ b = terms.beneficiary ∧ i = terms.checkInInterval then entry else _) = _
  by_cases same : (o, b, i) = (terms.owner, terms.beneficiary, terms.checkInInterval)
  · have parts : o = terms.owner ∧ b = terms.beneficiary ∧ i = terms.checkInInterval := by
      simpa only [Prod.mk.injEq] using same
    rw [if_pos parts, same, update_self]
  · have parts : ¬ (o = terms.owner ∧ b = terms.beneficiary ∧ i = terms.checkInInterval) := by
      simpa only [Prod.mk.injEq] using same
    rw [if_neg parts, update_of_ne same]
    rfl

namespace Marked

variable (marked : tenure.Marked)
include marked

theorem set (stored : tenure.terms id = some old) (same : new.duplicateKey = old.duplicateKey) :
    (tenure.set id new).Marked := by
  show Marks tenure.marker ((tenure.set id new).keyed Terms.duplicateKey)
  rw [keyed_set_same stored same]
  exact marked

theorem created (absent : tenure.terms (tenure.vaultCount + 1) = none)
    (locked : new.status = .locked)
    (fresh : tenure.vaultDuplicate new.owner new.beneficiary new.checkInInterval = none) :
    ((tenure.opened new).mark new (some (tenure.vaultCount + 1))).Marked := by
  have key : new.duplicateKey = some (new.owner, new.beneficiary, new.checkInInterval) :=
    if_pos locked
  have free : tenure.marker (new.owner, new.beneficiary, new.checkInInterval) = none := fresh
  have added := Marks.mark marked free (keyed_of_absent absent)
  rw [← key, ← keyed_set] at added
  show Marks ((tenure.opened new).mark new _).marker _
  rw [marker_mark]
  exact added

theorem clear (stored : tenure.terms id = some old) (locked : old.status = .locked)
    (unlocked : new.status ≠ .locked) (marker : base.marker = tenure.marker)
    (terms : base.terms = (tenure.set id new).terms) : (base.mark old none).Marked := by
  have key : tenure.keyed Terms.duplicateKey id =
      some (old.owner, old.beneficiary, old.checkInInterval) := by
    rw [keyed_of_terms stored]
    exact if_pos locked
  have none : new.duplicateKey = none := if_neg unlocked
  have cleared := Marks.clear marked key
  rw [← none, ← keyed_set] at cleared
  have keys : (base.mark old Option.none).keyed Terms.duplicateKey =
      (tenure.set id new).keyed Terms.duplicateKey := by
    funext other
    show (base.terms other).bind _ = _
    rw [terms]
    rfl
  show Marks (base.mark old Option.none).marker _
  rw [keys, marker_mark, marker]
  exact cleared

end Marked

end Tenure

section MarkerSteps

variable {env : Env} {call : Call} {s : State} {id : VaultId} {v : Vault}

theorem duplicateKey_same {new : Terms} (status : new.status = v.status)
    (same : v.status = .locked → new.owner = v.owner ∧ new.beneficiary = v.beneficiary ∧
      new.checkInInterval = v.checkInInterval) : new.duplicateKey = v.terms.duplicateKey := by
  rw [Terms.duplicateKey, Terms.duplicateKey]
  by_cases locked : v.status = .locked
  · obtain ⟨owner, beneficiary, interval⟩ := same locked
    rw [if_pos (status.trans locked), if_pos (show v.terms.status = .locked from locked), owner,
      beneficiary, interval]
    rfl
  · rw [if_neg (fun after => locked (status.symm.trans after)),
      if_neg (show v.terms.status ≠ .locked from locked)]

theorem TenureStep.marked {tenure : Tenure} (step : TenureStep env s call tenure)
    (counted : s.Counted) (marked : s.tenure.Marked) (condition : MarkersKept env s call) :
    tenure.Marked := by
  have absent : s.tenure.terms (s.vaultCount + 1) = none :=
    terms_eq_none.mpr (counted _ (Nat.lt_succ_self _))
  cases step with
  | kept | initiated | withdrawn | proposed | scheduled => exact marked
  | created ne fresh => exact marked.created absent rfl fresh
  | copied copies => cases copies.symm.trans condition.copies
  | rotated each =>
    show Marks s.tenure.marker _
    rw [keyed_rotated each fun _ _ => rfl]
    exact marked
  | released found locked waits =>
    rcases waits with ⟨releases, vesting⟩ | ⟨proof, claim, called⟩
    · cases vesting.symm.trans (condition.releases _ releases _ found).2
    · exact absurd called (condition.reveals _ _ _)
  | paid found locked | cancelled found locked =>
    refine marked.clear (terms_of_found found) locked ?_ rfl rfl
    exact nofun
  | refunded found locked releases missed =>
    cases missed.symm.trans (condition.releases _ releases _ found).1
  | listed found locked => exact marked.set (terms_of_found found) rfl
  | applied found stored =>
    refine marked.set (terms_of_found found) (duplicateKey_same rfl fun locked => ?_)
    exact ⟨rfl, condition.applies _ _ rfl _ found locked _ stored, rfl⟩
  | renamed found executed =>
    refine marked.set (terms_of_found found) (duplicateKey_same rfl fun locked => ?_)
    cases condition.executes _ _ _ found locked executed
  | accepted found locked stored =>
    refine marked.set (terms_of_found found) (duplicateKey_same rfl fun locked => ?_)
    exact ⟨condition.transfers _ _ (if_pos rfl) _ found locked, rfl, rfl⟩
  | transferred found taken =>
    refine marked.set (terms_of_found found) (duplicateKey_same rfl fun locked => ?_)
    exact ⟨condition.transfers _ _ taken _ found locked, rfl, rfl⟩
  | executedCancel found executed =>
    rename_i v
    have unlocked : v.status ≠ .locked := by
      intro locked
      cases condition.executes _ _ _ found locked executed
    refine marked.set (terms_of_found found) ?_
    rw [Terms.duplicateKey, Terms.duplicateKey, if_neg (show v.terms.status ≠ .locked from unlocked)]
    exact if_neg nofun
  | merged =>
    rw [condition.merges _ _ _ rfl]
    exact marked
  | retimed found mode =>
    refine marked.set (terms_of_found found) (duplicateKey_same rfl fun locked => ?_)
    rcases mode with ⟨-, called⟩ | executed
    · exact ⟨rfl, rfl, condition.retimes _ _ called _ found locked⟩
    · cases condition.executes _ _ _ found locked executed

theorem Tenure.Marked.duplicatesExact (marked : s.tenure.Marked) : s.DuplicatesExact := by
  intro env owner beneficiary interval token valid
  rw [createVault_duplicate_iff valid]
  have marks : (s.tenure.marker (owner, beneficiary, interval)).isSome = true ↔
      ∃ id, s.tenure.keyed Terms.duplicateKey id = some (owner, beneficiary, interval) :=
    Marks.isSome_iff marked
  refine marks.trans (exists_congr fun id => ?_)
  rw [Tenure.keyed_iff]
  exact exists_congr fun v => and_congr_right fun _ => Terms.duplicateKey_iff

theorem initialState_marked (xlmToken admin : Address) (ledger : Ledger Address Address) :
    (initialState xlmToken admin ledger).tenure.Marked := by
  intro key id
  exact ⟨nofun, nofun⟩

end MarkerSteps

/-- **Duplicate detection is exact** in every run whose steps meet the condition. -/
theorem duplicatesExact_of_kept {host : Host} {xlmToken admin : Address}
    {ledger : Ledger Address Address} {history : History} {s : State}
    (run : ContractRun host (initialState xlmToken admin ledger) history s)
    (kept : ∀ event ∈ history, MarkersKept event.input.env event.before event.input.call) :
    s.DuplicatesExact := by
  refine Tenure.Marked.duplicatesExact (regular_invariant run (initialState_regular ..)
    (·.tenure.Marked) (fun u input => MarkersKept input.env u input.call) (initialState_marked _ _ _)
    (fun u input t regular marked condition stepped => ?_) kept)
  exact (step_controlled stepped).tenure.marked regular.counted marked condition

def oneLeft : Scenario :=
  [(1, ⟨3⟩, .createVault ⟨3⟩ ⟨4⟩ 1000000 none),
    (2, ⟨3⟩, .createVault ⟨3⟩ ⟨4⟩ 2000000 none),
    (3, ⟨3⟩, .cancelVault 2 ⟨3⟩)]

/-- A second vault like the first one is refused, and one like the cancelled one is created. -/
theorem duplicatesExact_oneLeft :
    (played oneLeft).2.DuplicatesExact ∧
      createVault (plainEnv 4 [⟨3⟩]) ⟨3⟩ ⟨4⟩ 1000000 none (played oneLeft).2 =
        .error (.error .duplicateVault) ∧
      (createVault (plainEnv 4 [⟨3⟩]) ⟨3⟩ ⟨4⟩ 2000000 none (played oneLeft).2).isOk = true := by
  have detected : (played oneLeft).2.DuplicatesExact := by
    refine duplicatesExact_of_kept (plainInputs_run oneLeft) fun event member => ?_
    obtain ⟨entry, listed, is⟩ := plainInputs_event member
    rw [is]
    simp only [oneLeft, mem_cons, not_mem_nil, or_false] at listed
    rcases listed with rfl | rfl | rfl
    all_goals
      refine ⟨rfl, nofun, nofun, fun _ other => ?_, fun _ _ _ _ _ other => ?_, nofun,
        fun _ _ other => ?_, nofun⟩
      all_goals cases other
  refine ⟨detected, ?_, by decide +kernel⟩
  exact (detected _ _ _ _ _ (by decide +kernel)).mpr ⟨1, _, rfl, rfl, rfl, rfl, rfl⟩

def retimedVault : Scenario :=
  [(1, ⟨3⟩, .createVault ⟨3⟩ ⟨4⟩ 1000000 none), (2, ⟨3⟩, .updateCheckInInterval 1 2000000)]

/-- A second vault like it is created, and one like it was before is refused. -/
theorem retimedVault_not_duplicatesExact :
    PlainRun (played retimedVault).1 (played retimedVault).2 ∧
      ((played retimedVault).2.vaults 1).map
        (fun v => (v.status, v.owner, v.beneficiary, v.checkInInterval)) =
          some (.locked, ⟨3⟩, ⟨4⟩, 2000000) ∧
      (createVault (plainEnv 3 [⟨3⟩]) ⟨3⟩ ⟨4⟩ 2000000 none (played retimedVault).2).isOk = true ∧
      createVault (plainEnv 3 [⟨3⟩]) ⟨3⟩ ⟨4⟩ 1000000 none
        (played retimedVault).2 = .error (.error .duplicateVault) ∧
      ¬ (played retimedVault).2.DuplicatesExact := by
  have accepted : (createVault (plainEnv 3 [⟨3⟩]) ⟨3⟩ ⟨4⟩ 2000000 none
      (played retimedVault).2).isOk = true := by decide +kernel
  refine ⟨plainInputs_run retimedVault, rfl, accepted, ?_, fun detected => ?_⟩
  · exact (createVault_duplicate_iff (by decide +kernel)).mpr (by decide +kernel)
  · have refused := (detected (plainEnv 3 [⟨3⟩]) ⟨3⟩ ⟨4⟩ 2000000 none (by decide +kernel)).mpr
      ⟨1, _, rfl, rfl, rfl, rfl, rfl⟩
    rw [refused] at accepted
    cases accepted

end EthosContracts.TtlVault
