/-
**Who decides which passkeys a vault accepts.**
-/

import EthosContracts.TtlVault.Deadline

namespace EthosContracts.TtlVault

open Lib Function List

variable {event : VaultEvent} {request : PasskeyRecoveryRequest}

/-! ### Acceptable passkeys -/

/-- `validate_passkey_for_checkin` accepts the passkey for the vault. -/
def Acceptable (s : State) (id : VaultId) (env : Env) (passkeyHash : Hash) : Prop :=
  ∃ v, s.vaults id = some v ∧ (validatePasskeyForCheckin env id v passkeyHash s).isOk = true

namespace VaultKeys

/-- The passkey is registered: in the list, or as the primary one where there is no list. -/
def Registers (keys : VaultKeys) (passkeyHash : Hash) : Prop :=
  if keys.passkeys = [] then ∀ primary ∈ keys.primary, primary = passkeyHash
  else passkeyHash ∈ keys.passkeys

/-- The passkey is not reported, not in escrow and not expired. -/
structure Unblocked (keys : VaultKeys) (now : Nat) (passkeyHash : Hash) : Prop where
  compromised : passkeyHash ∉ keys.compromised
  escrow : keys.escrow passkeyHash = none
  expiry : ∀ time ∈ keys.expiry passkeyHash, now ≤ time

theorem registers_of_nonempty {keys : VaultKeys} {passkeyHash : Hash}
    (nonempty : keys.passkeys ≠ []) :
    keys.Registers passkeyHash ↔ passkeyHash ∈ keys.passkeys := by
  rw [Registers, if_neg nonempty]

theorem registers_append {keys later : VaultKeys} {new passkeyHash : Hash}
    (passkeys : later.passkeys = keys.passkeys ++ [new]) (registered : later.Registers passkeyHash) :
    keys.Registers passkeyHash ∨ passkeyHash = new := by
  have nonempty : later.passkeys ≠ [] := by
    rw [passkeys]
    exact append_ne_nil_of_right_ne_nil _ (cons_ne_nil _ _)
  have listed := (registers_of_nonempty nonempty).mp registered
  rw [passkeys] at listed
  rcases mem_append.mp listed with old | last
  · exact .inl ((registers_of_nonempty (ne_nil_of_mem old)).mpr old)
  · exact .inr (mem_singleton.mp last)

end VaultKeys

section Acceptable

variable {s : State} {id : VaultId} {env : Env} {passkeyHash : Hash}

theorem passkeyRegistered_iff {v : Vault} (found : s.vaults id = some v) :
    passkeyRegistered s id v passkeyHash = true ↔ (s.keys id).Registers passkeyHash := by
  have primary : (s.keys id).primary = v.passkeyHash := by
    show (s.vaults id).bind (·.passkeyHash) = v.passkeyHash
    rw [found, Option.bind_some]
  unfold passkeyRegistered VaultKeys.Registers
  rw [primary]
  have passkeys : (s.keys id).passkeys = (s.checkIns.vaultPasskeys id).map (·.hash) := rfl
  cases listed : s.checkIns.vaultPasskeys id with
  | nil =>
    rw [if_pos (by rw [passkeys, listed, map_nil])]
    exact decide_eq_true_iff
  | cons =>
    rw [if_neg (by rw [passkeys, listed]; exact cons_ne_nil _ _), passkeys, listed]
    simp only [any_eq_true, decide_eq_true_eq, mem_map]

theorem acceptable_iff : Acceptable s id env passkeyHash ↔
    (∃ v, s.vaults id = some v) ∧ (s.keys id).Registers passkeyHash ∧
      (s.keys id).Unblocked env.now passkeyHash := by
  have valid : ∀ v, s.vaults id = some v →
      ((validatePasskeyForCheckin env id v passkeyHash s).isOk = true ↔
        (s.keys id).Registers passkeyHash ∧ (s.keys id).Unblocked env.now passkeyHash) := by
    intro v found
    rw [Tx.isOk_iff_succeeds]
    simp only [validatePasskeyForCheckin, succeeds_rules, and_true]
    rw [passkeyRegistered_iff found, Option.isNone_iff_eq_none]
    constructor
    · rintro ⟨registered, compromised, escrow, expiry⟩
      exact ⟨registered, compromised, escrow, expiry⟩
    · rintro ⟨registered, compromised, escrow, expiry⟩
      exact ⟨registered, compromised, escrow, expiry⟩
  constructor
  · rintro ⟨v, found, ok⟩
    exact ⟨⟨v, found⟩, (valid v found).mp ok⟩
  · rintro ⟨⟨v, found⟩, keys⟩
    exact ⟨v, found, (valid v found).mpr keys⟩

end Acceptable

/-! ### The authority behind a passkey -/

/-- The owner has started a recovery, and different contacts of it have approved it since. -/
def RecoveryStarted (id : VaultId) (history : History) (owner : Address) (passkeyHash : Hash)
    (contacts : List Address) (required : Nat) (approvers : List Address) : Prop :=
  ∃ front initiation back code,
    history = front ++ initiation :: back ∧ SignedByOwner id initiation owner ∧
    initiation.input.call =
      .record (.initiatePasskeyRecovery id passkeyHash code contacts required) ∧
    approvers.Nodup ∧ ∀ address ∈ approvers, address ∈ contacts ∧ ∃ approval ∈ back,
      approval.input.call = .record (.approvePasskeyRecovery id address) ∧
        address ∈ approval.input.env.signers

/-- **The authority of the owner** behind an event that makes a passkey acceptable. The code and the
contacts are those of the owner that the vault has then. -/
inductive KeyAuthority (id : VaultId) (passkeyHash : Hash) (earlier : History)
    (event : VaultEvent) : Prop
  | owner {v} (found : event.before.vaults id = some v) (signed : v.owner ∈ event.input.env.signers)
  | opener {w} (absent : event.before.vaults id = none) (present : event.after.vaults id = some w)
      (signed : w.owner ∈ event.input.env.signers)
  | secret {v code} (found : event.before.vaults id = some v)
      (presented : event.input.call = .recoverWithCode id code passkeyHash)
      (stored : event.before.checkIns.recoveryCodeHash id = some (event.input.env.sha256 code))
      (registered : ∃ added ∈ earlier,
        StoresCodeHash id (event.input.env.sha256 code) v.owner added)
  | contacts {v named required approvers} (found : event.before.vaults id = some v)
      (started : RecoveryStarted id (earlier ++ [event]) v.owner passkeyHash named required approvers)
      (enough : required ≤ approvers.length)

/-- **The passkeys are controlled by the owner**, along a run. -/
def OwnerControlsKeys (history : History) : Prop :=
  ∀ earlier event later, history = earlier ++ event :: later → ∀ id env passkeyHash,
    ¬ Acceptable event.before id env passkeyHash → Acceptable event.after id env passkeyHash →
      KeyAuthority id passkeyHash earlier event

/-- The vault for which a call starts a recovery, or ends an escrow. -/
def Call.recovers : Call → Option VaultId
  | .record (.initiatePasskeyRecovery id ..) => some id
  | .record (.releaseEscrowPasskey id ..) => some id
  | _ => none

/-- Nothing on record lets anybody but the owner register a passkey. -/
structure State.Unrecoverable (s : State) (id : VaultId) : Prop where
  code : s.checkIns.recoveryCodeHash id = none
  request : s.checkIns.passkeyRecoveryRequest id = none

/-- The condition on one step: the owner of the vault signs the start of a recovery and the end of
an escrow, and a call that changes the owner finds neither a recovery nor a code. -/
structure OwnerInitiates (s : State) (env : Env) (call : Call) : Prop where
  signed : ∀ id ∈ call.recovers, ∃ v ∈ s.vaults id, v.owner ∈ env.signers
  handsOver : HandsOver State.Unrecoverable s call

/-! ### Where requests come from -/

/-- The recovery on record was started by the owner, and its contacts have given its approvals. -/
def Designated (id : VaultId) (history : History) (owner : Address) (contacts : Option (List Address))
    (request : PasskeyRecoveryRequest) : Prop :=
  ∃ named, contacts = some named ∧ RecoveryStarted id history owner request.newPasskeyHash named
    request.requiredContacts request.approvedContacts

namespace RecoveryStarted

variable {id : VaultId} {history : History} {contacts approvers : List Address}
  {caller owner : Address} {passkeyHash : Hash} {required : Nat}
  (started : RecoveryStarted id history owner passkeyHash contacts required approvers)
include started

theorem snoc :
    RecoveryStarted id (history ++ [event]) owner passkeyHash contacts required approvers := by
  obtain ⟨front, initiation, back, code, rfl, signed, called, distinct, each⟩ := started
  refine ⟨front, initiation, back ++ [event], code, ?_, signed, called, distinct, ?_⟩
  · rw [append_assoc, cons_append]
  · intro address member
    obtain ⟨listed, approval, earlier, approves⟩ := each address member
    exact ⟨listed, approval, mem_append_left _ earlier, approves⟩

/-- An approval by another contact. -/
theorem approve (contact : caller ∈ contacts) (new : caller ∉ approvers)
    (called : event.input.call = .record (.approvePasskeyRecovery id caller))
    (signed : caller ∈ event.input.env.signers) :
    RecoveryStarted id (history ++ [event]) owner passkeyHash contacts required
      (approvers ++ [caller]) := by
  obtain ⟨front, initiation, back, code, rfl, byOwner, initiates, distinct, each⟩ := started
  refine ⟨front, initiation, back ++ [event], code, ?_, byOwner, initiates, ?_, ?_⟩
  · rw [append_assoc, cons_append]
  · exact List.Nodup.append distinct (nodup_singleton caller) (disjoint_singleton.mpr new)
  · refine forall_mem_concat.mpr ⟨fun address member => ?_, contact, event, mem_concat_self,
      called, signed⟩
    obtain ⟨listed, approval, earlier, approves⟩ := each address member
    exact ⟨listed, approval, mem_append_left _ earlier, approves⟩

end RecoveryStarted

variable {id : VaultId} {earlier : History}

theorem KeyChange.authority {keys : VaultKeys} {v : Vault} {now : Nat} {passkeyHash : Hash}
    (change : KeyChange event.input.env event.before event.input.call id keys)
    (counted : event.before.Counted) (found : event.before.vaults id = some v)
    (requests : ∀ request, (event.before.keys id).request = some request →
      Designated id earlier v.owner (event.before.keys id).contacts request)
    (codes : ∀ hash, (event.before.keys id).codeHash = some hash →
      ∃ added ∈ earlier, StoresCodeHash id hash v.owner added)
    (owners : ∀ id ∈ event.input.call.recovers, ∃ v ∈ event.before.vaults id,
      v.owner ∈ event.input.env.signers)
    (rejected : ¬ ((event.before.keys id).Registers passkeyHash ∧
      (event.before.keys id).Unblocked now passkeyHash)) (registered : keys.Registers passkeyHash)
    (unblocked : keys.Unblocked now passkeyHash) : KeyAuthority id passkeyHash earlier event := by
  generalize called : event.input.call = call at change
  cases change with
  | opened =>
    rw [counted _ (Nat.lt_succ_self _)] at found
    cases found
  | added located signed | removed located signed | rotated located signed
  | assessed located signed | escrowed located signed | reclaimed located signed
  | coded located signed => exact .owner located signed
  | initiated | supported =>
    exact absurd ⟨registered, ⟨unblocked.1, unblocked.2, unblocked.3⟩⟩ rejected
  | returned =>
    rw [called] at owners
    obtain ⟨v, found, signed⟩ := owners id rfl
    exact .owner found signed
  | granted named contact signed stored new enough =>
    obtain ⟨contacts, given, started⟩ := requests _ stored
    cases named.symm.trans given
    rcases VaultKeys.registers_append rfl registered with old | rfl
    · -- it was registered before, and nothing else has changed
      exact absurd ⟨old, ⟨unblocked.1, unblocked.2, unblocked.3⟩⟩ rejected
    · exact .contacts found (started.approve contact new called signed) enough
  | recovered located stored =>
    rename_i code proof u
    have listed : passkeyHash ∈ [proof] :=
      (VaultKeys.registers_of_nonempty (cons_ne_nil _ _)).mp registered
    obtain rfl := mem_singleton.mp listed
    exact .secret found called stored (codes _ stored)

section Provenance

variable {host : Host} {start s : State} {history : History}

variable (run : ContractRun host start history s)
include run

/-- **A recovery on record was started by the present owner.** By induction on the run: the owner
stays as long as there is a request. -/
theorem run_designated (regular : start.Regular)
    (none : ∀ id, start.checkIns.passkeyRecoveryRequest id = none)
    (initiates : ∀ event ∈ history, OwnerInitiates event.before event.input.env event.input.call) :
    ∀ id request, (s.keys id).request = some request → ∃ v, s.vaults id = some v ∧
      Designated id history v.owner (s.keys id).contacts request := by
  refine run.history_invariant (fun history s =>
    (∀ event ∈ history, OwnerInitiates event.before event.input.env event.input.call) →
      ∀ id request, (s.keys id).request = some request → ∃ v, s.vaults id = some v ∧
        Designated id history v.owner (s.keys id).contacts request)
    (fun _ id request stored => ?_) (fun earlier u input t before ih stepped => ?_) initiates
  · cases (none id).symm.trans stored
  · intro conditions id request stored
    have old := ih (forall_mem_concat.mp conditions).1
    have condition := conditions ⟨u, input, t⟩ mem_concat_self
    have counted := (run_regular before regular).counted
    have controlled := step_controlled stepped
    -- the owner of a vault with a request stays
    have stays {v : Vault} {request : PasskeyRecoveryRequest} (found : u.vaults id = some v)
        (pending : (u.keys id).request = some request) :
        ∃ w, t.vaults id = some w ∧ w.owner = v.owner :=
      controlled.owner counted found fun _ taken => condition.handsOver.stays
        (fun clear => by cases clear.request.symm.trans pending) found taken
    -- a step that changes neither the request nor its contacts
    have kept : ∀ keys : VaultKeys, keys.request = some request →
        keys.request = (u.keys id).request → keys.contacts = (u.keys id).contacts → ∃ v,
        t.vaults id = some v ∧
          Designated id (earlier ++ [⟨u, input, t⟩]) v.owner keys.contacts request := by
      intro keys given sameRequest sameContacts
      obtain ⟨v, found, named, listed, started⟩ := old id request (sameRequest.symm.trans given)
      obtain ⟨w, present, same⟩ := stays found (sameRequest.symm.trans given)
      exact ⟨w, present, named, sameContacts.trans listed, same ▸ started.snoc⟩
    rcases controlled.keys.at id with same | change
    · exact kept (t.keys id) stored (by rw [same]) (by rw [same])
    · generalize t.keys id = keys at change stored
      generalize called : input.call = call at change
      cases change with
      | initiated pos =>
        rename_i passkeyHash code contacts required
        obtain rfl := Option.some.inj stored
        have byOwner := condition.signed
        rw [called] at byOwner
        obtain ⟨v, found, signed⟩ := byOwner id rfl
        obtain ⟨w, present, same⟩ := controlled.owner counted found fun _ taken => by
          rw [called] at taken
          cases taken
        exact ⟨w, present, contacts, rfl, earlier, _, [], code, rfl,
          ⟨⟨v, found, same.symm⟩, same ▸ signed⟩, called, nodup_nil, nofun⟩
      | supported named contact signed pending new =>
        obtain rfl := Option.some.inj stored
        obtain ⟨v, found, contacts, given, started⟩ := old id _ pending
        obtain ⟨w, present, same⟩ := stays found pending
        cases named.symm.trans given
        exact ⟨w, present, _, named, same ▸ started.approve contact new called signed⟩
      | granted => cases stored
      | opened | added | removed | rotated | assessed | escrowed | returned | reclaimed | coded
      | recovered => exact kept _ stored rfl rfl

end Provenance

/-- **The passkeys are controlled by the owner** in every run whose steps meet the condition. -/
theorem ownerControlsKeys_of_initiates {host : Host} {xlmToken admin : Address}
    {ledger : Ledger Address Address} {history : History} {s : State}
    (run : ContractRun host (initialState xlmToken admin ledger) history s)
    (initiates : ∀ event ∈ history, OwnerInitiates event.before event.input.env event.input.call) :
    OwnerControlsKeys history := by
  intro earlier event later whole id env passkeyHash rejected accepted
  have regular := initialState_regular xlmToken admin ledger
  obtain ⟨middle, before, rest⟩ := run.split earlier (event :: later) whole
  obtain ⟨rfl, stepped, -⟩ := rest.uncons
  have regularBefore := run_regular before regular
  have controlled := step_controlled stepped
  rw [whole, forall_mem_append, forall_mem_cons] at initiates
  obtain ⟨conditions, condition, -⟩ := initiates
  rw [acceptable_iff] at rejected accepted
  obtain ⟨⟨w, present⟩, registered, unblocked⟩ := accepted
  cases found : event.before.vaults id with
  | none => exact .opener found present (controlled.opened id w found present)
  | some v =>
    have rejected : ¬ ((event.before.keys id).Registers passkeyHash ∧
        (event.before.keys id).Unblocked env.now passkeyHash) :=
      fun both => rejected ⟨⟨v, found⟩, both⟩
    rcases controlled.keys.at id with same | change
    · rw [same] at registered unblocked
      exact absurd ⟨registered, unblocked⟩ rejected
    · refine change.authority regularBefore.counted found (fun request pending => ?_)
        (fun hash stored => ?_) condition.signed rejected registered unblocked
      · obtain ⟨u, found', designated⟩ :=
          run_designated before regular (fun _ => rfl) conditions id request pending
        cases found.symm.trans found'
        exact designated
      · obtain ⟨u, found', registered⟩ := run_codes before regular
          (fun event member => (conditions event member).handsOver) rfl
          (fun _ clear => clear.code) stored
        cases found.symm.trans found'
        exact registered

def ownersRecovery : Scenario :=
  [(1, ⟨9⟩, .createVault ⟨9⟩ ⟨4⟩ 1000000 none),
    (1, ⟨9⟩, .transferOwnership 1 ⟨9⟩ ⟨3⟩),
    (2, ⟨3⟩, .record (.addPasskey 1 ⟨3⟩ [1])),
    (3, ⟨3⟩, .record (.initiatePasskeyRecovery 1 [2] "code" [⟨5⟩, ⟨6⟩] 2)),
    (4, ⟨5⟩, .record (.approvePasskeyRecovery 1 ⟨5⟩)),
    (5, ⟨6⟩, .record (.approvePasskeyRecovery 1 ⟨6⟩))]

/-- The second passkey is registered, and with the owner's authority. -/
theorem ownerControlsKeys_ownersRecovery :
    ((played ownersRecovery).2.keys 1).passkeys = [[1], [2]] ∧
      OwnerControlsKeys (played ownersRecovery).1 := by
  have signed : ∀ event ∈ (played ownersRecovery).1,
      ∀ id ∈ event.input.call.recovers, ∃ v ∈ event.before.vaults id,
        v.owner ∈ event.input.env.signers := by decide +kernel
  refine ⟨by decide +kernel, ownerControlsKeys_of_initiates (plainInputs_run ownersRecovery)
    fun event member => ⟨signed event member, fun id newOwner taken => ?_⟩⟩
  rcases member with _ | ⟨_, _ | ⟨_, _ | ⟨_, _ | ⟨_, _ | ⟨_, _ | ⟨_, none⟩⟩⟩⟩⟩⟩
  all_goals try cases taken
  · by_cases same : 1 = id
    · subst same
      exact .inl ⟨rfl, rfl⟩
    · cases (if_neg same).symm.trans taken
  · cases none

def strangersRequest : Scenario :=
  [(1, ⟨3⟩, .createVault ⟨3⟩ ⟨4⟩ 1000000 none),
    (2, ⟨3⟩, .record (.addPasskey 1 ⟨3⟩ [1])),
    (3, ⟨9⟩, .record (.initiatePasskeyRecovery 1 [2] "code" [⟨9⟩] 1))]

def strangersRecovery : VaultEvent :=
  nextEvent fundedState (plainInputs strangersRequest)
    ⟨plainEnv 4 [⟨9⟩], .record (.approvePasskeyRecovery 1 ⟨9⟩)⟩

/-- The stranger's passkey becomes acceptable without any authority of the owner. -/
theorem strangersRecovery_not_controlled :
    PlainRun
        ((played strangersRequest).1 ++ [strangersRecovery])
        strangersRecovery.after ∧
      ¬ Acceptable strangersRecovery.before 1 (plainEnv 5 [⟨9⟩]) [2] ∧
      Acceptable strangersRecovery.after 1 (plainEnv 5 [⟨9⟩]) [2] ∧
      ¬ OwnerControlsKeys ((played strangersRequest).1 ++ [strangersRecovery]) := by
  have rejected : ¬ Acceptable strangersRecovery.before 1 (plainEnv 5 [⟨9⟩]) [2] := by
    intro ⟨v, found, valid⟩
    cases found
    cases valid
  have accepted : Acceptable strangersRecovery.after 1 (plainEnv 5 [⟨9⟩]) [2] := ⟨_, rfl, rfl⟩
  refine ⟨.snoc (plainInputs_run strangersRequest) ⟨rfl, rfl⟩, rejected, accepted,
    fun controls => ?_⟩
  cases controls _ strangersRecovery [] rfl 1 (plainEnv 5 [⟨9⟩]) [2] rejected accepted with
  | owner found signed =>
    cases found
    cases mem_singleton.mp signed
  | opener absent => cases absent
  | secret _ presented => cases presented
  | contacts located started =>
    cases located
    obtain ⟨front, initiation, back, code, split, ⟨⟨v, found, same⟩, signs⟩, called, -⟩ := started
    have member : initiation ∈ (played strangersRequest).1 ++ [strangersRecovery] := by
      rw [split]
      exact mem_append_cons_self
    -- the only request is the stranger's
    rcases member with _ | ⟨_, _ | ⟨_, _ | ⟨_, _ | ⟨_, none⟩⟩⟩⟩
    · cases called
    · cases called
    · cases found
      cases same
      cases mem_singleton.mp signs
    · cases called
    · cases none

end EthosContracts.TtlVault
