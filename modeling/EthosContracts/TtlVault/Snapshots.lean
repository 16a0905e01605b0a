/-
**Incremental snapshots of a vault (`incremental_snapshots.rs`).**

A snapshot records the fields of a vault that changed since the one before, each as a compressed XOR
delta; every sixteenth is a checkpoint with all fields. A past state is rebuilt by replaying the
chain from the nearest checkpoint.
-/

import Mathlib.Data.List.Induction
import EthosContracts.Lib.Table
import EthosContracts.TtlVault.Call
import EthosContracts.TtlVault.DiffCodec
import EthosContracts.TtlVault.Xdr

namespace EthosContracts.TtlVault.Snapshots

open Lib Function List

/-! ### Storage -/

def fullSnapshotInterval : Nat := 16

def vaultFieldCount : Nat := 21

structure FieldDelta where
  /-- The index of the field in the vault. -/
  field : Nat
  /-- The length of the field's new encoding. -/
  len : Nat
  data : Bytes

structure IncrementalSnapshot where
  vaultId : VaultId
  sequence : Nat
  timestamp : Nat
  isFull : Bool
  deltas : List FieldDelta
  stateHash : Hash
  fullSize : Nat
  storedSize : Nat

structure SnapshotState where
  count : VaultId → Nat := fun _ => 0
  entries : VaultId → Nat → Option IncrementalSnapshot := fun _ _ => none

abbrev SnapshotTx (α : Type) : Type := Tx Failure SnapshotState α

def corrupted : Failure := .error .snapshotCorrupted

def SnapshotState.saveSnapshot (s : SnapshotState) (id : VaultId) (sequence : Nat)
    (snapshot : IncrementalSnapshot) : SnapshotState where
  count := update s.count id (sequence + 1)
  entries := update s.entries id (update (s.entries id) sequence (some snapshot))

def present {α : Type} (value : Option α) (failure : Failure) : Except Failure α :=
  match value with
  | some a => .ok a
  | none => .error failure

/-! ### Fields -/

section Functions

variable (host : Host) (xdr : VaultXdr)

/-- `encode_fields`: every field on its own, in the order of the record. -/
def encodeFields (v : Vault) : List Bytes :=
  [xdr.address.encode v.owner, xdr.address.encode v.beneficiary, xdr.i128.encode v.balance,
    xdr.u64.encode v.checkInInterval, xdr.u64.encode v.lastCheckIn, xdr.u64.encode v.createdAt,
    xdr.releaseStatus.encode v.status, xdr.beneficiaries.encode v.beneficiaries,
    xdr.string.encode v.metadata, xdr.address.encode v.tokenAddress,
    xdr.bytes.encode v.customMetadata, xdr.bool.encode v.isPaused,
    xdr.releaseCondition.encode v.releaseCondition, xdr.optionU64.encode v.parentVaultId,
    xdr.optionBytes.encode v.passkeyHash, xdr.optionI128.encode v.maxDepositAmount,
    xdr.optionI128.encode v.withdrawalApprovalThreshold, xdr.optionI128.encode v.spendingLimit,
    xdr.optionU32.encode v.inactivityPenaltyBps, xdr.u32.encode v.burnPercentage,
    xdr.optionAddress.encode v.penaltyRecipient]

def dec {α : Type} (codec : Codec α) (fields : List Bytes) (index : Nat) : Except Failure α := do
  let bytes ← present fields[index]? corrupted
  present (codec.decode bytes) corrupted

def decodeFields (fields : List Bytes) : Except Failure Vault := do
  let owner ← dec xdr.address fields 0
  let beneficiary ← dec xdr.address fields 1
  let balance ← dec xdr.i128 fields 2
  let checkInInterval ← dec xdr.u64 fields 3
  let lastCheckIn ← dec xdr.u64 fields 4
  let createdAt ← dec xdr.u64 fields 5
  let status ← dec xdr.releaseStatus fields 6
  let beneficiaries ← dec xdr.beneficiaries fields 7
  let metadata ← dec xdr.string fields 8
  let tokenAddress ← dec xdr.address fields 9
  let customMetadata ← dec xdr.bytes fields 10
  let isPaused ← dec xdr.bool fields 11
  let releaseCondition ← dec xdr.releaseCondition fields 12
  let parentVaultId ← dec xdr.optionU64 fields 13
  let passkeyHash ← dec xdr.optionBytes fields 14
  let maxDepositAmount ← dec xdr.optionI128 fields 15
  let withdrawalApprovalThreshold ← dec xdr.optionI128 fields 16
  let spendingLimit ← dec xdr.optionI128 fields 17
  let inactivityPenaltyBps ← dec xdr.optionU32 fields 18
  let burnPercentage ← dec xdr.u32 fields 19
  let penaltyRecipient ← dec xdr.optionAddress fields 20
  pure ⟨owner, beneficiary, balance, checkInInterval, lastCheckIn, createdAt, status,
    beneficiaries, metadata, tokenAddress, customMetadata, isPaused, releaseCondition,
    parentVaultId, passkeyHash, maxDepositAmount, withdrawalApprovalThreshold, spendingLimit,
    inactivityPenaltyBps, burnPercentage, penaltyRecipient⟩

def emptyFields : List Bytes := List.replicate vaultFieldCount []

/-- `state_hash`, without the size. -/
def stateHash (vault : Vault) : Hash := host.sha256 (xdr.vault.encode vault)

/-! ### The chain -/

def applyDelta (fields : List Bytes) (delta : FieldDelta) : Except Failure (List Bytes) := do
  let prev ← present fields[delta.field]? corrupted
  let next ← present (diffDecompress prev delta.data delta.len) corrupted
  pure (fields.set delta.field next)

/-- One round of the loop of `replay_fields`. -/
def replayEntry (entries : Nat → Option IncrementalSnapshot) (checkpoint : Nat)
    (fields : List Bytes) (sequence : Nat) : Except Failure (List Bytes) := do
  let snapshot ← present (entries sequence) (.error .snapshotNotFound)
  if sequence = checkpoint ∧ snapshot.isFull = false then .error corrupted
  else snapshot.deltas.foldlM applyDelta fields

/-- The nearest checkpoint at or before a snapshot. -/
def checkpointOf (sequence : Nat) : Nat := sequence - sequence % fullSnapshotInterval

def replayFields (entries : Nat → Option IncrementalSnapshot) (sequence : Nat) :
    Except Failure (List Bytes) :=
  (List.range' (checkpointOf sequence) (sequence - checkpointOf sequence + 1)).foldlM
    (replayEntry entries (checkpointOf sequence)) emptyFields

/-- The delta of one field, unless it is the same and need not be stored. -/
def deltaOf (isFull : Bool) (previous current : List Bytes) (index : Nat) : Option FieldDelta :=
  let next := current[index]?.getD []
  let prev := previous[index]?.getD []
  if isFull = false ∧ next = prev then none
  else some ⟨index, next.length, diffCompress prev next⟩

def deltasOf (isFull : Bool) (previous current : List Bytes) : List FieldDelta :=
  (List.range vaultFieldCount).filterMap (deltaOf isFull previous current)

def createSnapshot (now : Nat) (id : VaultId) (vault : Vault) : SnapshotTx Nat := do
  let sequence ← read (·.count id)
  let isFull := decide (sequence % fullSnapshotInterval = 0)
  let current := encodeFields xdr vault
  let previous ←
    if isFull then pure emptyFields
    else consult fun s => replayFields (s.entries id) (sequence - 1)
  let deltas := deltasOf isFull previous current
  let storedSize := deltas.foldl (fun size delta => min (size + delta.data.length) (2 ^ 32 - 1)) 0
  ensure (sequence + 1 < 2 ^ 32) .overflow
  write (·.saveSnapshot id sequence
    { vaultId := id, sequence := sequence, timestamp := now, isFull := isFull,
      deltas := deltas, stateHash := stateHash host xdr vault,
      fullSize := (xdr.vault.encode vault).length, storedSize := storedSize })
  pure sequence

def reconstruct (s : SnapshotState) (id : VaultId) (sequence : Nat) : Except Failure Vault := do
  let snapshot ← present (s.entries id sequence) (.error .snapshotNotFound)
  let fields ← replayFields (s.entries id) sequence
  let vault ← decodeFields xdr fields
  if stateHash host xdr vault ≠ snapshot.stateHash then .error corrupted else pure vault

end Functions

section Deltas

variable {host : Host} {xdr : VaultXdr} {entries : Nat → Option IncrementalSnapshot}
variable {snapshot : IncrementalSnapshot} {previous current : List Bytes} {sequence : Nat}

variable {α : Type} {fields : List Bytes} {isFull : Bool}

@[simp] theorem present_some (a : α) (failure : Failure) : present (some a) failure = .ok a := rfl

@[simp] theorem length_encodeFields (v : Vault) :
    (encodeFields xdr v).length = vaultFieldCount := rfl

@[simp] theorem length_emptyFields : emptyFields.length = vaultFieldCount := rfl

theorem decodeFields_encodeFields (v : Vault) : decodeFields xdr (encodeFields xdr v) = .ok v := by
  unfold decodeFields encodeFields
  simp only [dec, List.getElem?_cons_zero, List.getElem?_cons_succ, present_some,
    Codec.decode_encode, bind, Except.bind]
  rfl

theorem applyDelta_deltaOf {index : Nat} {prev next : Bytes}
    (old : previous[index]? = some prev) (new : current[index]? = some next)
    (here : fields[index]? = some prev) :
    applyDelta fields ⟨index, (current[index]?.getD []).length,
      diffCompress (previous[index]?.getD []) (current[index]?.getD [])⟩ =
      .ok (fields.set index next) := by
  unfold applyDelta
  rw [old, new]
  simp only [Option.getD_some]
  rw [here, present_some]
  show (present (diffDecompress prev (diffCompress prev next) next.length) corrupted >>= _) = _
  rw [diffDecompress_diffCompress, present_some]
  rfl

/-- **The loop over the deltas of a snapshot.** The fields before `first` are already the current
ones, the others still the previous ones. -/
theorem foldlM_deltas (before : previous.length = vaultFieldCount)
    (after : current.length = vaultFieldCount) (count first : Nat)
    (whole : first + count = vaultFieldCount) (fields : List Bytes)
    (mixed : ∀ i, fields[i]? = if i < first then current[i]? else previous[i]?) :
    ((List.range' first count).filterMap (deltaOf isFull previous current)).foldlM applyDelta
      fields = .ok current := by
  induction count generalizing first fields with
  | zero =>
    have done : fields = current := by
      refine ext_getElem? fun i => ?_
      rw [mixed i]
      split_ifs with early
      · rfl
      · rw [List.getElem?_eq_none (by omega), List.getElem?_eq_none (by omega)]
    rw [done]
    rfl
  | succ count ih =>
    obtain ⟨prev, old⟩ : ∃ prev, previous[first]? = some prev :=
      ⟨_, List.getElem?_eq_getElem (by omega)⟩
    obtain ⟨next, new⟩ : ∃ next, current[first]? = some next :=
      ⟨_, List.getElem?_eq_getElem (by omega)⟩
    have here : fields[first]? = some prev := by
      rw [mixed first, if_neg (lt_irrefl first), old]
    have long : first < fields.length := (List.getElem?_eq_some_iff.mp here).1
    rw [List.range'_succ, filterMap_cons]
    by_cases kept : isFull = false ∧ current[first]?.getD [] = previous[first]?.getD []
    · have none : deltaOf isFull previous current first = none := if_pos kept
      rw [none]
      refine ih (first + 1) (by omega) fields fun i => ?_
      have same : next = prev := by
        have equal := kept.2
        rw [old, new] at equal
        exact equal
      rw [mixed i]
      rcases Nat.lt_trichotomy i first with early | rfl | late
      · rw [if_pos early, if_pos (by omega)]
      · rw [if_neg (lt_irrefl i), if_pos (by omega), old, new, same]
      · rw [if_neg (by omega), if_neg (by omega)]
    · have stored : deltaOf isFull previous current first =
          some ⟨first, (current[first]?.getD []).length,
            diffCompress (previous[first]?.getD []) (current[first]?.getD [])⟩ := if_neg kept
      rw [stored]
      show (applyDelta fields _ >>= _) = _
      rw [applyDelta_deltaOf old new here]
      refine ih (first + 1) (by omega) _ fun i => ?_
      rw [List.getElem?_set]
      rcases Nat.lt_trichotomy i first with early | rfl | late
      · rw [if_neg (by omega), mixed i, if_pos early, if_pos (by omega)]
      · rw [if_pos rfl, if_pos long, if_pos (by omega), new]
      · rw [if_neg (by omega), mixed i, if_neg (by omega), if_neg (by omega)]

theorem foldlM_deltasOf (before : previous.length = vaultFieldCount)
    (after : current.length = vaultFieldCount) :
    (deltasOf isFull previous current).foldlM applyDelta previous = .ok current := by
  unfold deltasOf
  rw [range_eq_range']
  refine foldlM_deltas before after vaultFieldCount 0 (Nat.zero_add _) previous fun i => ?_
  rw [if_neg (Nat.not_lt_zero i)]

/-! ### Replaying the chain -/

theorem replayEntry_eq {checkpoint : Nat} (stored : entries sequence = some snapshot)
    (intact : sequence = checkpoint → snapshot.isFull = true) :
    replayEntry entries checkpoint fields sequence = snapshot.deltas.foldlM applyDelta fields := by
  unfold replayEntry
  rw [stored, present_some]
  refine if_neg fun broken => ?_
  rw [intact broken.1] at broken
  cases broken.2

theorem replayFields_full (full : sequence % fullSnapshotInterval = 0)
    (stored : entries sequence = some snapshot) (isFull : snapshot.isFull = true)
    (deltas : snapshot.deltas.foldlM applyDelta emptyFields = .ok current) :
    replayFields entries sequence = .ok current := by
  have checkpoint : checkpointOf sequence = sequence := by
    rw [checkpointOf, full, Nat.sub_zero]
  rw [replayFields, checkpoint, Nat.sub_self, List.range'_one, foldlM_cons,
    replayEntry_eq stored fun _ => isFull, deltas]
  rfl

theorem replayFields_succ (delta : (sequence + 1) % fullSnapshotInterval ≠ 0)
    (before : replayFields entries sequence = .ok previous)
    (stored : entries (sequence + 1) = some snapshot)
    (deltas : snapshot.deltas.foldlM applyDelta previous = .ok current) :
    replayFields entries (sequence + 1) = .ok current := by
  have within : checkpointOf sequence ≤ sequence := Nat.sub_le _ _
  have checkpoint : checkpointOf (sequence + 1) = checkpointOf sequence := by
    unfold checkpointOf fullSnapshotInterval at *
    omega
  have length : sequence + 1 - checkpointOf sequence + 1 =
      sequence - checkpointOf sequence + 1 + 1 := by omega
  have last : checkpointOf sequence + 1 * (sequence - checkpointOf sequence + 1) =
      sequence + 1 := by omega
  unfold replayFields at before ⊢
  rw [checkpoint, length, List.range'_concat, foldlM_append, before, last]
  show [sequence + 1].foldlM (replayEntry entries _) previous = _
  rw [foldlM_cons, replayEntry_eq stored fun same => absurd same (by omega), deltas]
  rfl

theorem foldlM_congr {β : Type} {f g : β → α → Except Failure β} (items : List α) (start : β)
    (same : ∀ a ∈ items, ∀ b, f b a = g b a) : items.foldlM f start = items.foldlM g start := by
  induction items generalizing start with
  | nil => rfl
  | cons a others ih =>
    rw [foldlM_cons, foldlM_cons, same a mem_cons_self]
    refine congrArg _ (funext fun next => ?_)
    exact ih next (forall_mem_cons.mp same).2

theorem replayFields_congr {later : Nat → Option IncrementalSnapshot}
    (same : ∀ i ≤ sequence, later i = entries i) :
    replayFields later sequence = replayFields entries sequence := by
  refine foldlM_congr _ _ fun i member fields => ?_
  have within : checkpointOf sequence ≤ sequence := Nat.sub_le _ _
  rw [mem_range'_1] at member
  unfold replayEntry
  rw [same i (by omega)]

end Deltas

/-! ### The chain of a vault -/

/-- The snapshots of a vault are those of the given states, in this order. -/
structure Chain (host : Host) (xdr : VaultXdr) (s : SnapshotState) (id : VaultId)
    (states : List Vault) : Prop where
  count : s.count id = states.length
  stored : ∀ i v, states[i]? = some v → ∃ snapshot, s.entries id i = some snapshot ∧
    snapshot.stateHash = stateHash host xdr v
  replays : ∀ i v, states[i]? = some v → replayFields (s.entries id) i = .ok (encodeFields xdr v)

section Chains

variable {host : Host} {xdr : VaultXdr} {s t : SnapshotState} {id : VaultId} {states : List Vault}

theorem Chain.reconstruct (chain : Chain host xdr s id states) {i : Nat} {v : Vault}
    (taken : states[i]? = some v) : reconstruct host xdr s id i = .ok v := by
  obtain ⟨snapshot, stored, hash⟩ := chain.stored i v taken
  unfold Snapshots.reconstruct
  rw [stored, present_some, chain.replays i v taken]
  show (decodeFields xdr (encodeFields xdr v) >>= _) = _
  rw [decodeFields_encodeFields]
  exact if_neg (not_not_intro hash.symm)

theorem Chain.congr (chain : Chain host xdr s id states)
    (count : t.count id = s.count id)
    (entries : t.entries id = s.entries id) : Chain host xdr t id states := by
  refine ⟨count.trans chain.count, ?_, ?_⟩
  · rw [entries]
    exact chain.stored
  · rw [entries]
    exact chain.replays

/-- The fields that a snapshot is taken against: none for a checkpoint, else those of the snapshot
before. -/
def Previous (s : SnapshotState) (id : VaultId) (previous : List Bytes) : Prop :=
  if s.count id % fullSnapshotInterval = 0 then previous = emptyFields
  else replayFields (s.entries id) (s.count id - 1) = .ok previous

theorem Chain.previous (chain : Chain host xdr s id states) :
    ∃ fields, fields.length = vaultFieldCount ∧
      ∀ previous, Previous s id previous ↔ previous = fields := by
  unfold Previous
  split_ifs with full
  · exact ⟨emptyFields, length_emptyFields, fun _ => Iff.rfl⟩
  · have pos : 0 < states.length := by
      refine Nat.pos_of_ne_zero fun zero => full ?_
      rw [chain.count, zero]
      rfl
    obtain ⟨v, last⟩ : ∃ v, states[s.count id - 1]? = some v :=
      ⟨_, List.getElem?_eq_getElem (by rw [chain.count]; omega)⟩
    refine ⟨encodeFields xdr v, length_encodeFields v, fun previous => ?_⟩
    rw [chain.replays _ _ last, Except.ok.injEq]
    exact eq_comm

variable {previous : List Bytes} {snapshot : IncrementalSnapshot}

theorem Previous.replays {fields : List Bytes} (before : Previous s id previous)
    {entries : Nat → Option IncrementalSnapshot}
    (old : ∀ i < s.count id, entries i = s.entries id i)
    (new : entries (s.count id) = some snapshot)
    (isFull : snapshot.isFull = decide (s.count id % fullSnapshotInterval = 0))
    (replayed : snapshot.deltas.foldlM applyDelta previous = .ok fields) :
    replayFields entries (s.count id) = .ok fields := by
  unfold Previous at before
  split_ifs at before with full
  · rw [before] at replayed
    refine replayFields_full full new ?_ replayed
    rw [isFull, decide_eq_true_eq]
    exact full
  · obtain ⟨n, last⟩ : ∃ n, s.count id = n + 1 := by
      refine Nat.exists_eq_succ_of_ne_zero fun zero => full ?_
      rw [zero]
      rfl
    rw [last] at full old new ⊢
    rw [last, Nat.add_sub_cancel, ← replayFields_congr fun j within => old j (by omega)] at before
    exact replayFields_succ full before new replayed

theorem Chain.saveSnapshot (chain : Chain host xdr s id states)
    (before : Previous s id previous) {vault : Vault}
    (isFull : snapshot.isFull = decide (s.count id % fullSnapshotInterval = 0))
    (deltas : snapshot.deltas = deltasOf snapshot.isFull previous (encodeFields xdr vault))
    (hash : snapshot.stateHash = stateHash host xdr vault) :
    Chain host xdr (s.saveSnapshot id (s.count id) snapshot) id (states ++ [vault]) := by
  obtain ⟨fields, length, unique⟩ := chain.previous
  obtain rfl := (unique previous).mp before
  have replayed : snapshot.deltas.foldlM applyDelta previous = .ok (encodeFields xdr vault) := by
    rw [deltas]
    exact foldlM_deltasOf length (length_encodeFields vault)
  generalize result : s.saveSnapshot id (s.count id) snapshot = t
  have entries : t.entries id = update (s.entries id) (s.count id) (some snapshot) := by
    rw [← result]
    exact update_self _ _ _
  have count : t.count id = s.count id + 1 := by
    rw [← result]
    exact update_self _ _ _
  have old : ∀ i < s.count id, t.entries id i = s.entries id i := by
    intro i earlier
    rw [entries, update_of_ne earlier.ne]
  have new : t.entries id (s.count id) = some snapshot := by
    rw [entries, update_self]
  have indexed : ∀ i v, (states ++ [vault])[i]? = some v →
      i < s.count id ∧ states[i]? = some v ∨ i = s.count id ∧ vault = v := by
    intro i v taken
    rw [chain.count]
    exact concat_eq_some_iff.mp taken
  refine ⟨?_, fun i v taken => ?_, fun i v taken => ?_⟩
  · rw [count, chain.count, length_append, length_singleton]
  · rcases indexed i v taken with ⟨earlier, taken⟩ | ⟨rfl, rfl⟩
    · rw [old i earlier]
      exact chain.stored i v taken
    · exact ⟨snapshot, new, hash⟩
  · rcases indexed i v taken with ⟨earlier, taken⟩ | ⟨rfl, rfl⟩
    · rw [replayFields_congr fun j within => old j (by omega)]
      exact chain.replays i v taken
    · exact before.replays old new isFull replayed

/-! ### Runs -/

theorem createSnapshot_wp (now : Nat) (vault : Vault) (chain : Chain host xdr s id states) :
    (createSnapshot host xdr now id vault).wp s fun _ t =>
      Chain host xdr t id (states ++ [vault]) ∧
      ∀ other, other ≠ id → t.count other = s.count other ∧ t.entries other = s.entries other := by
  have frame (snapshot : IncrementalSnapshot) : ∀ other, other ≠ id →
      (s.saveSnapshot id (s.count id) snapshot).count other = s.count other ∧
      (s.saveSnapshot id (s.count id) snapshot).entries other = s.entries other :=
    fun other ne => ⟨update_of_ne ne _ _, update_of_ne ne _ _⟩
  simp only [createSnapshot, wp_core, wp_consult, decide_eq_true_eq]
  refine ⟨fun full _ => ⟨?_, frame _⟩, fun delta previous replayed _ => ⟨?_, frame _⟩⟩
  · refine chain.saveSnapshot ?_ rfl rfl rfl
    exact (if_pos full).mpr rfl
  · refine chain.saveSnapshot ?_ rfl rfl rfl
    exact (if_neg delta).mpr replayed

theorem createSnapshot_succeeds (now : Nat) (vault : Vault)
    (chain : Chain host xdr s id states) (room : s.count id + 1 < 2 ^ 32) :
    (createSnapshot host xdr now id vault).succeeds s fun sequence _ =>
      sequence = s.count id := by
  obtain ⟨fields, -, unique⟩ := chain.previous
  have before := (unique fields).mpr rfl
  unfold Previous at before
  simp only [createSnapshot, succeeds_bind, succeeds_read, succeeds_ite, succeeds_consult,
    succeeds_ensure, succeeds_write, succeeds_pure, decide_eq_true_eq]
  refine ⟨fun _ => ⟨room, trivial⟩, fun delta => ⟨fields, ?_, room, trivial⟩⟩
  exact (if_neg delta).mp before

end Chains

structure SnapshotInput where
  now : Nat
  vaultId : VaultId
  vault : Vault

section Runs

variable (host : Host) (xdr : VaultXdr)

def exec (input : SnapshotInput) : SnapshotTx Unit := do
  let _ ← createSnapshot host xdr input.now input.vaultId input.vault
  pure ()

def step (s : SnapshotState) (input : SnapshotInput) (t : SnapshotState) : Prop :=
  exec host xdr input s = .ok ((), t)

/-- Snapshots of any vaults, taken of any states of them. -/
abbrev SnapshotRun : List (Event SnapshotState SnapshotInput) → SnapshotState → Prop :=
  Run (step host xdr) {}

end Runs

/-- The states of a vault that snapshots were taken of, in order. -/
def takenOf (history : List (Event SnapshotState SnapshotInput)) (id : VaultId) : List Vault :=
  history.filterMap fun event =>
    if event.input.vaultId = id then some event.input.vault else none

section Results

variable {host : Host} {xdr : VaultXdr} {s t : SnapshotState}
  {history : List (Event SnapshotState SnapshotInput)}

theorem takenOf_append (history : List (Event SnapshotState SnapshotInput))
    (event : Event SnapshotState SnapshotInput) (id : VaultId) :
    takenOf (history ++ [event]) id = takenOf history id ++
      if event.input.vaultId = id then [event.input.vault] else [] := by
  unfold takenOf
  rw [filterMap_append]
  split_ifs with same <;> simp [same]

theorem step_chain {input : SnapshotInput}
    (chains : ∀ id, Chain host xdr s id (takenOf history id)) (stepped : step host xdr s input t) :
    ∀ id, Chain host xdr t id (takenOf (history ++ [⟨s, input, t⟩]) id) := by
  have taken : (exec host xdr input).wp s fun _ t =>
      Chain host xdr t input.vaultId (takenOf history input.vaultId ++ [input.vault]) ∧
      ∀ other, other ≠ input.vaultId →
        t.count other = s.count other ∧ t.entries other = s.entries other := by
    simp only [exec.eq_def, wp_core]
    exact createSnapshot_wp input.now input.vault (chains input.vaultId)
  obtain ⟨chain, frame⟩ := taken () t stepped
  intro id
  rw [takenOf_append]
  split_ifs with same
  · exact same ▸ chain
  · obtain ⟨count, entries⟩ := frame id (Ne.symm same)
    rw [append_nil]
    exact (chains id).congr count entries

theorem run_chain (run : SnapshotRun host xdr history s) :
    ∀ id, Chain host xdr s id (takenOf history id) := by
  refine run.history_invariant
    (fun history s => ∀ id, Chain host xdr s id (takenOf history id)) ?_ ?_
  · intro id
    refine ⟨rfl, fun i v taken => ?_, fun i v taken => ?_⟩ <;> cases taken
  · intro history s input t _ chains stepped
    exact step_chain chains stepped

/-- **Incremental snapshots rebuild the past exactly**: the `i`-th snapshot of a vault gives the
`i`-th of its states. Another one can always be taken, of any state, until the counter is exhausted.
-/
theorem snapshots_reconstruct (run : SnapshotRun host xdr history s) (vaultId : VaultId) :
    (∀ i v, (takenOf history vaultId)[i]? = some v → reconstruct host xdr s vaultId i = .ok v) ∧
      ∀ now vault, (takenOf history vaultId).length + 1 < 2 ^ 32 →
        ∃ t, createSnapshot host xdr now vaultId vault s =
          .ok ((takenOf history vaultId).length, t) := by
  have chain := run_chain run vaultId
  refine ⟨fun i v taken => chain.reconstruct taken, fun now vault room => ?_⟩
  rw [← chain.count] at room ⊢
  obtain ⟨sequence, t, created, rfl⟩ := createSnapshot_succeeds now vault chain room
  exact ⟨t, created⟩

theorem exists_run (host : Host) (xdr : VaultXdr) (inputs : List SnapshotInput)
    (room : inputs.length < 2 ^ 32) :
    ∃ history s, SnapshotRun host xdr history s ∧ history.map Event.input = inputs := by
  induction inputs using List.reverseRecOn with
  | nil => exact ⟨[], {}, .nil, rfl⟩
  | append_singleton earlier input ih =>
    rw [length_append, length_singleton] at room
    obtain ⟨history, s, run, rfl⟩ := ih (by omega)
    have chain := run_chain run input.vaultId
    have few : (takenOf history input.vaultId).length ≤ history.length :=
      length_filterMap_le _ _
    rw [length_map] at room
    obtain ⟨sequence, t, created, -⟩ :=
      createSnapshot_succeeds input.now input.vault chain (by rw [chain.count]; omega)
    refine ⟨history ++ [⟨s, input, t⟩], t, run.snoc ?_, by simp⟩
    exact bind_of_ok created

def plainVault : Vault :=
  ⟨⟨3⟩, ⟨4⟩, 100, 86400, 1000, 1000, .locked, [], "", ⟨1⟩, [], false, .ttlExpiry, none, none, none,
    none, none, none, 0, none⟩

/-- Three snapshots: of a vault, after a deposit, and unchanged. -/
theorem snapshots_reconstruct_plainVault :
    ∃ history s, SnapshotRun plainHost plainXdr history s ∧
      takenOf history 1 = [plainVault, { plainVault with balance := 150 },
        { plainVault with balance := 150 }] ∧
      reconstruct plainHost plainXdr s 1 0 = .ok plainVault ∧
      reconstruct plainHost plainXdr s 1 2 = .ok { plainVault with balance := 150 } := by
  obtain ⟨history, s, run, inputs⟩ := exists_run plainHost plainXdr
    [⟨1000, 1, plainVault⟩, ⟨1001, 1, { plainVault with balance := 150 }⟩,
      ⟨1002, 1, { plainVault with balance := 150 }⟩] (by decide)
  have taken : takenOf history 1 = [plainVault, { plainVault with balance := 150 },
      { plainVault with balance := 150 }] := by
    have mapped : takenOf history 1 = (history.map Event.input).filterMap fun input =>
        if input.vaultId = 1 then some input.vault else none := by
      rw [filterMap_map]
      rfl
    rw [mapped, inputs]
    rfl
  obtain ⟨rebuilt, -⟩ := snapshots_reconstruct run 1
  refine ⟨history, s, run, taken, rebuilt 0 _ ?_, rebuilt 2 _ ?_⟩
  · rw [taken]
    rfl
  · rw [taken]
    rfl

end Results

end EthosContracts.TtlVault.Snapshots
