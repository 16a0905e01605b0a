/-
**The check-in history of a vault (`record_check_in_history` and its readers).**

The last fifty check-ins are kept in a ring of numbered slots, read by `get_check_in_history`,
`get_check_in_history_page` and `predict_expiry`.
-/

import EthosContracts.Lib.Replay
import EthosContracts.Lib.Slices
import EthosContracts.TtlVault.Lifecycle

namespace EthosContracts.TtlVault.CheckInHistory

open Lib Function List

/-- The keys `CheckInHistoryLen`, `CheckInHistoryHead` and `CheckInEntry` of a vault; a counter that
is absent is read as 0. -/
structure Ring where
  len : Nat := 0
  head : Nat := 0
  entry : Nat → Option Nat := fun _ => none

structure HistoryState where
  vaults : VaultId → Option Vault
  ring : VaultId → Ring := fun _ => {}

variable (ring : Ring) (s : HistoryState) (id : VaultId)

/-- The next check-in takes a new slot, or that of the oldest one. -/
def Ring.record (timestamp : Nat) : Ring :=
  if ring.len < 50 then
    { ring with entry := update ring.entry ring.len (some timestamp), len := ring.len + 1 }
  else
    { ring with
      entry := update ring.entry ring.head (some timestamp), head := (ring.head + 1) % 50 }

/-- The vault is loaded for the lifetime of the keys. -/
def recordCheckInHistory (timestamp : Nat) : Tx Failure HistoryState Unit := do
  let vault ← read (·.vaults id)
  let _ ← expect vault (.error .vaultNotFound)
  write fun s => { s with ring := update s.ring id ((s.ring id).record timestamp) }

def Ring.get (i : Nat) : Option Nat :=
  ring.entry (if ring.len < 50 then i else (ring.head + i) % 50)

/-- The loop over positions; a missing entry is skipped. -/
def Ring.slice (first count : Nat) : List Nat :=
  (List.range' first count).filterMap ring.get

def getCheckInHistory : List Nat :=
  let ring := s.ring id
  if ring.len = 0 then [] else ring.slice 0 ring.len

/-- The product and the sum are plain `u32` arithmetic. -/
def getCheckInHistoryPage (page pageSize : Nat) : Except Failure (List Nat) :=
  let ring := s.ring id
  let start := page * pageSize
  if maxU32 < start then .error .overflow
  else if ring.len ≤ start then .ok []
  else if maxU32 < start + pageSize then .error .overflow
  else .ok (ring.slice start (min (start + pageSize) ring.len - start))

/-- The subtraction is plain `u64` arithmetic. -/
def predictedInterval (checkInInterval : Nat) : Except Failure Nat :=
  let n := min ring.len 10
  if 2 ≤ ring.len then
    match ring.get (ring.len - n), ring.get (ring.len - 1) with
    | some first, some last =>
      if last < first then .error .overflow else .ok (max ((last - first) / (n - 1)) 1)
    | _, _ => .ok checkInInterval
  else .ok checkInInterval

def predictExpiry : Except Failure Nat :=
  match s.vaults id with
  | none => .error (.error .vaultNotFound)
  | some vault => (predictedInterval (s.ring id) vault.checkInInterval).map fun interval =>
      min (vault.lastCheckIn + interval) maxU64

/-! ### The ring -/

def lastFifty (recorded : List Nat) : List Nat := recorded.drop (recorded.length - 50)

/-- The `i`-th check-in is in slot `i % 50`. -/
structure Holds (ring : Ring) (recorded : List Nat) : Prop where
  len : ring.len = min recorded.length 50
  head : ring.head = (recorded.length - 50) % 50
  entry : ∀ i, recorded.length ≤ i + 50 → i < recorded.length → ring.entry (i % 50) = recorded[i]?

def intervals : List Nat → List Nat
  | earlier :: later :: rest => (later - earlier) :: intervals (later :: rest)
  | _ => []

/-- The average of the intervals between the last ten check-ins. -/
def averageInterval (recorded : List Nat) (checkInInterval : Nat) : Nat :=
  let lately := intervals (recorded.drop (recorded.length - 10))
  if lately = [] then checkInInterval else max (lately.sum / lately.length) 1

theorem length_intervals (first : Nat) (rest : List Nat) :
    (intervals (first :: rest)).length = rest.length := by
  induction rest generalizing first with
  | nil => rfl
  | cons second rest ih => rw [intervals, length_cons, ih, length_cons]

theorem add_sum_intervals {first : Nat} {rest : List Nat}
    (ordered : (first :: rest).Pairwise (· ≤ ·)) :
    first + (intervals (first :: rest)).sum = rest.getLastD first := by
  induction rest generalizing first with
  | nil => rfl
  | cons second rest ih =>
    obtain ⟨least, later⟩ := pairwise_cons.mp ordered
    have next := least second mem_cons_self
    rw [intervals, sum_cons, getLastD_cons, ← ih later]
    omega

namespace Holds

variable {ring : Ring} {recorded : List Nat}

variable (holds : Holds ring recorded)
include holds

theorem record (timestamp : Nat) : Holds (ring.record timestamp) (recorded ++ [timestamp]) := by
  obtain ⟨len, head, entry⟩ := holds
  -- the next check-in goes to the slot of its number
  have written : ∀ i, recorded.length + 1 ≤ i + 50 → i < recorded.length + 1 →
      update ring.entry (recorded.length % 50) (some timestamp) (i % 50) =
        (recorded ++ [timestamp])[i]? := by
    intro i recent earlier
    rcases Nat.lt_or_eq_of_le (Nat.le_of_lt_succ earlier) with before | rfl
    · rw [List.getElem?_append_left before, update_of_ne (by omega)]
      exact entry i (by omega) before
    · simp
  unfold Ring.record
  split
  · rw [show recorded.length % 50 = ring.len by omega] at written
    exact ⟨by simp; omega, by simp; omega, by simpa using written⟩
  · rw [show recorded.length % 50 = ring.head by omega] at written
    exact ⟨by simp; omega, by simp; omega, by simpa using written⟩

theorem get {i : Nat} (inside : i < ring.len) : ring.get i = (lastFifty recorded)[i]? := by
  obtain ⟨len, head, entry⟩ := holds
  have slot : (if ring.len < 50 then i else (ring.head + i) % 50) =
      (recorded.length - 50 + i) % 50 := by
    split <;> omega
  rw [Ring.get, slot, lastFifty, List.getElem?_drop]
  exact entry _ (by omega) (by omega)

theorem length_lastFifty : (lastFifty recorded).length = ring.len := by
  rw [holds.len, lastFifty, length_drop]
  omega

theorem slice {first count : Nat} (inside : first + count ≤ ring.len) :
    ring.slice first count = ((lastFifty recorded).drop first).take count := by
  rw [← filterMap_getElem?_range', Ring.slice]
  refine filterMap_congr fun i member => holds.get ?_
  obtain ⟨_, below⟩ := mem_range'_1.mp member
  omega

theorem predictedInterval (ordered : recorded.Pairwise (· ≤ ·)) (checkInInterval : Nat) :
    predictedInterval ring checkInInterval = .ok (averageInterval recorded checkInInterval) := by
  have len := holds.len
  -- a position of the ring among the last ten
  have read : ∀ i, i < min recorded.length 10 →
      ring.get (ring.len - min ring.len 10 + i) = (recorded.drop (recorded.length - 10))[i]? := by
    intro i inside
    rw [holds.get (by omega), lastFifty, List.getElem?_drop, List.getElem?_drop]
    congr 1
    omega
  unfold CheckInHistory.predictedInterval averageInterval
  rcases shape : recorded.drop (recorded.length - 10) with _ | ⟨first, _ | ⟨second, rest⟩⟩
  all_goals
    have count := congrArg List.length shape
    rw [length_drop] at count
  · rw [length_nil] at count
    exact if_neg (by omega)
  · rw [length_singleton] at count
    exact if_neg (by omega)
  · rw [length_cons, length_cons] at count
    have sorted : (first :: second :: rest).Pairwise (· ≤ ·) := shape ▸ ordered.drop
    have total := add_sum_intervals sorted
    have oldest : ring.get (ring.len - min ring.len 10) = some first := by
      rw [← Nat.add_zero (_ - _), read 0 (by omega), shape]
      rfl
    have newest : ring.get (ring.len - 1) = some ((second :: rest).getLastD first) := by
      rw [show ring.len - 1 = ring.len - min ring.len 10 + (rest.length + 1) by omega,
        read _ (by omega), shape]
      exact List.getLast?_eq_getElem?.symm.trans List.getLast?_cons
    have gaps : min ring.len 10 - 1 = (second :: rest).length := by
      rw [length_cons]
      omega
    simp only [oldest, newest, ← total, length_intervals, gaps]
    rw [if_pos (by omega), if_neg (by omega), if_neg (by simp [intervals]), Nat.add_sub_cancel_left]

end Holds

/-! ### Runs -/

def recordEntry (input : VaultId × Nat) : Tx Failure HistoryState Unit :=
  recordCheckInHistory input.1 input.2

abbrev Recording : Type := List (Event HistoryState (VaultId × Nat))

def recordedFor (history : Recording) : List Nat :=
  history.filterMap fun event => if event.input.1 = id then some event.input.2 else none

section Runs

variable {vaults : VaultId → Option Vault} {s : HistoryState} {id : VaultId} {vault : Vault}
  {history : Recording}

theorem run_holds (run : Run (Executes recordEntry) { vaults := vaults } history s)
    (id : VaultId) :
    s.vaults = vaults ∧ Holds (s.ring id) (recordedFor id history) := by
  refine run.history_invariant (fun history s => s.vaults = vaults ∧
    Holds (s.ring id) (recordedFor id history)) ⟨rfl, rfl, rfl, nofun⟩ ?_
  intro history s input t _ before stepped
  have recorded : (recordEntry input).wp s fun _ t => t =
      { s with ring := update s.ring input.1 ((s.ring input.1).record input.2) } := by
    simp only [recordEntry, recordCheckInHistory, wp_core, implies_true]
  obtain rfl := recorded _ _ stepped
  refine ⟨before.1, ?_⟩
  by_cases here : input.1 = id
  · subst here
    simpa [recordedFor] using before.2.record input.2
  · simpa [recordedFor, here, update_of_ne (Ne.symm here)] using before.2

/-- **The ring is the list of the last check-ins**, and a page that can be computed is its slice. -/
theorem history_iff (run : Run (Executes recordEntry) { vaults := vaults } history s)
    (found : vaults id = some vault)
    (ordered : (recordedFor id history).Pairwise (· ≤ ·)) (page pageSize : Nat)
    (size : pageSize ≤ maxU32) :
    getCheckInHistory s id = lastFifty (recordedFor id history) ∧
    predictExpiry s id = .ok (min (vault.lastCheckIn +
      averageInterval (recordedFor id history) vault.checkInInterval) maxU64) ∧
    (getCheckInHistoryPage s id page pageSize = .ok
        (((lastFifty (recordedFor id history)).drop (page * pageSize)).take pageSize) ↔
      page * pageSize ≤ maxU32) := by
  obtain ⟨same, holds⟩ := run_holds run id
  have len := holds.length_lastFifty
  refine ⟨?_, ?_, ?_⟩
  · have whole := holds.slice (Nat.zero_add _).le
    rw [drop_zero, take_of_length_le len.le] at whole
    rw [← whole, getCheckInHistory]
    split
    case isTrue none => rw [none]; rfl
    case isFalse => rfl
  · rw [predictExpiry, same, found]
    exact congrArg (Except.map _) (holds.predictedInterval ordered vault.checkInInterval)
  · unfold getCheckInHistoryPage
    by_cases wide : maxU32 < page * pageSize
    · simp only [if_pos wide, reduceCtorEq, Nat.not_le.mpr wide]
    by_cases beyond : (s.ring id).len ≤ page * pageSize
    · rw [drop_eq_nil_of_le (len ▸ beyond), take_nil]
      simp only [if_neg wide, if_pos beyond, Nat.not_lt.mp wide]
    -- a page that starts in the list starts it or is short
    have short : ¬ maxU32 < page * pageSize + pageSize := by
      have fifty := holds.len
      rcases page with _ | page
      · omega
      · have le : pageSize ≤ (page + 1) * pageSize := Nat.le_mul_of_pos_left pageSize page.succ_pos
        have room : 100 ≤ maxU32 := by decide
        omega
    simp only [if_neg wide, if_neg beyond, if_neg short, Except.ok.injEq, Nat.not_lt.mp wide, iff_true]
    rw [holds.slice (by omega), take_eq_take_iff, length_drop]
    omega

end Runs

def sixtyCheckIns : Recording × HistoryState :=
  play recordEntry { vaults := fun _ => some (newVault ⟨3⟩ ⟨4⟩ ⟨1⟩ 600 1000) }
    ((range 60).map fun k => (1, 700 * k))

/-- The first ten of sixty check-ins are gone. -/
theorem history_iff_sixtyCheckIns :
    getCheckInHistory sixtyCheckIns.2 1 = (range' 10 50).map (700 * ·) ∧
      predictExpiry sixtyCheckIns.2 1 = .ok (1000 + 700) ∧
      getCheckInHistoryPage sixtyCheckIns.2 1 2 20 = .ok ((range' 50 10).map (700 * ·)) := by
  have run : Run (Executes recordEntry) _ sixtyCheckIns.1 sixtyCheckIns.2 := play_executes _ _ _
  have recorded : recordedFor 1 sixtyCheckIns.1 = (range 60).map (700 * ·) := by decide +kernel
  have ordered : (recordedFor 1 sixtyCheckIns.1).Pairwise (· ≤ ·) := by
    rw [recorded]
    decide
  obtain ⟨list, predicted, page⟩ := history_iff run rfl ordered 2 20 (by decide)
  rw [recorded] at list predicted page
  exact ⟨list.trans (by decide +kernel), predicted.trans (congrArg Except.ok (by decide +kernel)),
    (page.mpr (by decide)).trans (congrArg Except.ok (by decide +kernel))⟩

def threeCheckIns : Recording × HistoryState :=
  play recordEntry { vaults := fun _ => some (newVault ⟨3⟩ ⟨4⟩ ⟨1⟩ 600 1000) }
    [(1, 1000), (1, 1600), (1, 2800)]

/-- The page is beyond the end of the list, and the call traps. -/
theorem page_traps :
    Run (Executes recordEntry) { vaults := fun _ => some (newVault ⟨3⟩ ⟨4⟩ ⟨1⟩ 600 1000) }
        threeCheckIns.1 threeCheckIns.2 ∧
      recordedFor 1 threeCheckIns.1 = [1000, 1600, 2800] ∧
      getCheckInHistoryPage threeCheckIns.2 1 65536 65536 = .error .overflow :=
  ⟨play_executes _ _ _, rfl, rfl⟩

end EthosContracts.TtlVault.CheckInHistory
