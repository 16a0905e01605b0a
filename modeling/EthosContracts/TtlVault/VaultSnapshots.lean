/-
**The snapshots of a vault by time** (`create_vault_snapshot`, `get_vault_snapshot`).

A snapshot is stored under the time of the call, and the time is appended to a list. When the list
exceeds 1000 times the first one is taken out and its snapshot removed, even if the time is listed
again.
-/

import EthosContracts.TtlVault.Snapshots

namespace EthosContracts.TtlVault.VaultSnapshots

open Function List

structure VaultSnapshot where
  vault : Vault
  timestamp : Nat
  contentHash : Hash

/-- The keys `VaultSnapshot` and `VaultSnapshotTimestamps` of a vault. -/
structure SnapshotKeys where
  snapshot : Nat → Option VaultSnapshot
  timestamps : List Nat

variable (contentHash : Vault → Hash)

def createVaultSnapshot (now : Nat) (vault : Vault) (keys : SnapshotKeys) : SnapshotKeys :=
  let snapshot := update keys.snapshot now (some ⟨vault, now, contentHash vault⟩)
  match keys.timestamps ++ [now] with
  | [] => ⟨snapshot, []⟩
  | oldest :: rest =>
    if 1000 < (oldest :: rest).length then ⟨update snapshot oldest none, rest⟩
    else ⟨snapshot, oldest :: rest⟩

/-- Without a snapshot the call ends with `SnapshotNotFound`. -/
def getVaultSnapshot (keys : SnapshotKeys) (timestamp : Nat) : Option Vault :=
  (keys.snapshot timestamp).map VaultSnapshot.vault

/-- The keys after some calls, each with its time and the vault then. -/
def afterSnapshots (calls : List (Nat × Vault)) : SnapshotKeys :=
  calls.foldl (fun keys call => createVaultSnapshot contentHash call.1 call.2 keys)
    ⟨fun _ => none, []⟩

def lastAt (calls : List (Nat × Vault)) (time : Nat) : Option Vault :=
  ((calls.filter (·.1 = time)).getLast?).map Prod.snd

/-- **Listed snapshots exist**, and are the last ones of their times. -/
def Listed (calls : List (Nat × Vault)) : Prop :=
  ∀ time ∈ (afterSnapshots contentHash calls).timestamps, ∃ vault, lastAt calls time = some vault ∧
    getVaultSnapshot (afterSnapshots contentHash calls) time = some vault

theorem exists_lastAt {calls : List (Nat × Vault)} {time : Nat} (called : time ∈ calls.map Prod.fst) :
    ∃ vault, lastAt calls time = some vault := by
  obtain ⟨call, member, rfl⟩ := mem_map.mp called
  have found : (calls.filter (·.1 = call.1)) ≠ [] :=
    ne_nil_of_mem (mem_filter.mpr ⟨member, decide_eq_true rfl⟩)
  exact ⟨_, by rw [lastAt, List.getLast?_eq_some_getLast found]; rfl⟩

theorem lastAt_concat (calls : List (Nat × Vault)) (now : Nat) (vault : Vault) (time : Nat) :
    lastAt (calls ++ [(now, vault)]) time = if time = now then some vault else lastAt calls time := by
  unfold lastAt
  by_cases same : time = now
  · simp [same]
  · simp [same, Ne.symm same]

/-- **The invariant**: the times of the calls are those taken out and those listed, and only the
times taken out have no snapshot. -/
structure Kept (calls : List (Nat × Vault)) (keys : SnapshotKeys) (removed : List Nat) : Prop where
  times : calls.map Prod.fst = removed ++ keys.timestamps
  count : removed.length = calls.length - 1000
  stored : ∀ time, getVaultSnapshot keys time = if time ∈ removed then none else lastAt calls time

section Runs

variable {contentHash} {calls : List (Nat × Vault)}

theorem Kept.create {removed : List Nat} {keys : SnapshotKeys} (kept : Kept calls keys removed)
    {now : Nat} {vault : Vault} (sorted : ((calls ++ [(now, vault)]).map Prod.fst).Pairwise (· ≤ ·)) :
    ∃ removed, Kept (calls ++ [(now, vault)]) (createVaultSnapshot contentHash now vault keys)
      removed := by
  have times : (calls ++ [(now, vault)]).map Prod.fst = removed ++ (keys.timestamps ++ [now]) := by
    rw [map_append, kept.times, append_assoc]
    rfl
  have total := congrArg List.length kept.times
  have count := kept.count
  have one : (calls ++ [(now, vault)]).length = calls.length + 1 := length_append
  have last : now ∈ keys.timestamps ++ [now] := mem_concat_self
  rw [length_map, length_append] at total
  rw [times] at sorted
  unfold createVaultSnapshot
  cases listed : keys.timestamps ++ [now] with
  | nil => simp at listed
  | cons oldest rest =>
    have size := congrArg List.length listed
    rw [length_append, length_singleton] at size
    rw [listed] at times sorted last
    dsimp only
    split
    case isTrue full =>
      refine ⟨removed ++ [oldest], by rw [times, append_assoc]; rfl, ?_, fun time => ?_⟩
      · rw [length_append, length_singleton]
        omega
      · rw [lastAt_concat]
        by_cases out : time = oldest
        · simp [getVaultSnapshot, out]
        by_cases new : time = now
        · -- a time that was taken out before is not after the oldest one
          subst new
          have present : time ∉ removed := by
            intro gone
            obtain ⟨-, listedSorted, apart⟩ := pairwise_append.mp sorted
            have below := apart time gone oldest mem_cons_self
            rcases mem_cons.mp last with same | later
            · exact out same
            · exact out (le_antisymm below ((pairwise_cons.mp listedSorted).1 time later))
          simp [getVaultSnapshot, out, present]
        · simpa [getVaultSnapshot, out, new] using kept.stored time
    case isFalse under =>
      have none : removed = [] := length_eq_zero_iff.mp (by omega)
      have few : (calls ++ [(now, vault)]).length ≤ 1000 := by omega
      refine ⟨removed, times, by rw [none, Nat.sub_eq_zero_of_le few]; rfl, fun time => ?_⟩
      rw [lastAt_concat]
      by_cases new : time = now
      · simp [getVaultSnapshot, new, none]
      · simpa [getVaultSnapshot, new] using kept.stored time

variable (contentHash) in
theorem exists_kept (sorted : (calls.map Prod.fst).Pairwise (· ≤ ·)) :
    ∃ removed, Kept calls (afterSnapshots contentHash calls) removed := by
  induction calls using List.reverseRecOn with
  | nil => exact ⟨[], rfl, rfl, fun _ => rfl⟩
  | append_singleton calls call ih =>
    obtain ⟨removed, kept⟩ := ih (sorted.sublist ((sublist_append_left ..).map _))
    rw [afterSnapshots, foldl_append]
    exact kept.create sorted

theorem Kept.not_listed {removed : List Nat}
    (kept : Kept calls (afterSnapshots contentHash calls) removed) {time : Nat} (gone : time ∈ removed)
    (member : time ∈ (afterSnapshots contentHash calls).timestamps) : ¬Listed contentHash calls := by
  intro listed
  obtain ⟨vault, -, found⟩ := listed time member
  rw [kept.stored, if_pos gone] at found
  cases found

end Runs

/-- **When the listed snapshots exist.** For all calls at non-decreasing times: exactly if the last
time that was taken out of the list, if any, is not the first that is left in it. -/
theorem listed_iff (calls : List (Nat × Vault)) (sorted : (calls.map Prod.fst).Pairwise (· ≤ ·)) :
    Listed contentHash calls ↔ ∀ earlier last first later, calls.map Prod.fst =
      earlier ++ last :: first :: later → later.length = 999 → last ≠ first := by
  obtain ⟨removed, kept⟩ := exists_kept contentHash sorted
  have total := congrArg List.length kept.times
  have count := kept.count
  rw [length_map, length_append] at total
  constructor
  · rintro listed earlier last first later whole size rfl
    have length := congrArg List.length whole
    rw [length_map, length_append, length_cons, length_cons] at length
    rw [kept.times, append_cons] at whole
    obtain ⟨out, left⟩ := append_inj whole (by rw [length_append, length_singleton]; omega)
    exact kept.not_listed (by rw [out]; exact mem_concat_self)
      (by rw [left]; exact mem_cons_self) listed
  · intro apart time member
    have present : time ∉ removed := by
      intro gone
      obtain ⟨first, later, left⟩ := exists_cons_of_ne_nil (ne_nil_of_mem member)
      obtain ⟨earlier, last, rfl⟩ := (eq_nil_or_concat' removed).resolve_left (ne_nil_of_mem gone)
      have whole := kept.times
      rw [left] at whole total member
      rw [length_append, length_singleton] at total count
      rw [length_cons] at total
      rw [whole] at sorted
      obtain ⟨outSorted, leftSorted, below⟩ := pairwise_append.mp sorted
      have between := below last mem_concat_self first mem_cons_self
      have lowest : first ≤ time := (mem_cons.mp member).elim (fun same => same.ge)
        ((pairwise_cons.mp leftSorted).1 time)
      have highest : time ≤ last := (mem_append.mp gone).elim
        (fun old => (pairwise_append.mp outSorted).2.2 time old last mem_cons_self)
        (fun same => (mem_singleton.mp same).le)
      exact apart earlier last first later (by rw [whole, append_assoc]; rfl) (by omega)
        (le_antisymm between (lowest.trans highest))
    have called : time ∈ calls.map Prod.fst := by
      rw [kept.times]
      exact mem_append_right _ member
    obtain ⟨vault, found⟩ := exists_lastAt called
    exact ⟨vault, found, by rw [kept.stored, if_neg present, found]⟩

theorem listed_iff_distinct :
    Listed (fun _ => []) ((range 1500).map fun time => (time, Snapshots.plainVault)) := by
  have times : ((range 1500).map fun time => (time, Snapshots.plainVault)).map Prod.fst =
      range 1500 := by rw [map_map, Function.comp_def, map_id']
  refine (listed_iff _ _ ?_).mpr ?_
  · rw [times]
    exact pairwise_lt_range.imp le_of_lt
  · rintro earlier last first later whole - rfl
    have distinct : (range 1500).Nodup := nodup_range
    rw [← times, whole] at distinct
    exact (nodup_cons.mp (nodup_append.mp distinct).2.1).1 mem_cons_self

/-- **1001 snapshots at one time.** The time is listed, and its snapshot is gone. -/
theorem crowded_not_listed :
    ¬Listed (fun _ => []) (List.replicate 1001 (5, Snapshots.plainVault)) := by
  have sorted : ((List.replicate 1001 (5, Snapshots.plainVault)).map Prod.fst).Pairwise (· ≤ ·) := by
    rw [map_replicate]
    exact pairwise_replicate.mpr (.inr le_rfl)
  obtain ⟨removed, kept⟩ := exists_kept (fun _ => []) sorted
  have times := kept.times
  have count := kept.count
  rw [length_replicate] at count
  rw [map_replicate, eq_comm, append_eq_replicate_iff] at times
  obtain ⟨total, out, left⟩ := times
  have gone : 5 ∈ removed := by
    rw [out]
    exact mem_replicate.mpr ⟨by omega, rfl⟩
  refine kept.not_listed gone ?_
  rw [left]
  exact mem_replicate.mpr ⟨by omega, rfl⟩

end EthosContracts.TtlVault.VaultSnapshots
