/-
**The paginated audit log of a vault (`append_activity_log`, `get_vault_audit_log_page`).**

Entries are stored in pages of fifty; entries from before that layout are in one list, which comes
first. A read page is independent of the stored ones.

`audit_pages` — for logs of less than `2 ^ 32` entries every page is its slice of the log, and the
pages of a size other than 0 are together the whole log. With the size 0 there is nothing in any
page.
-/

import EthosContracts.Lib.Slices
import EthosContracts.TtlVault.State

namespace EthosContracts.TtlVault.AuditLog

open Lib Function List

structure AuditEntry where
  action : String
  caller : Address
  timestamp : Nat
  operation : String
  actor : Address
  details : String

/-- The keys `VaultAuditLog`, `VaultAuditLogLen` and `VaultAuditLogPage` of a vault. A list that is
absent is read as empty, the counter as 0. -/
structure VaultLog where
  legacy : List AuditEntry
  len : Nat := 0
  page : Nat → List AuditEntry := fun _ => []

/-- The counter is a `u32`. -/
def VaultLog.append (log : VaultLog) (entry : AuditEntry) : Except Failure VaultLog :=
  if maxU32 < log.len + 1 then .error .overflow
  else .ok { log with
    page := update log.page (log.len / 50) (log.page (log.len / 50) ++ [entry])
    len := log.len + 1 }

def appendActivityLog (now : Nat) (action : String) (caller : Address) (log : VaultLog) :
    Except Failure VaultLog :=
  log.append ⟨action, caller, now, "", caller, ""⟩

def VaultLog.copyPages (log : VaultLog) (cap : Nat) : Nat → Nat → List AuditEntry → List AuditEntry
  | 0, _, result => result
  | turns + 1, newIndex, result =>
    if result.length < cap ∧ newIndex < log.len then
      let entries := log.page (newIndex / 50)
      let count := min (entries.length - newIndex % 50) (cap - result.length)
      if count = 0 then result
      else log.copyPages cap turns (newIndex + count)
        (result ++ (entries.drop (newIndex % 50)).take count)
    else result

/-- Products and sums saturate. -/
def getVaultAuditLogPage (log : VaultLog) (page pageSize : Nat) : List AuditEntry :=
  let cap := min pageSize 50
  if cap = 0 then []
  else
    let start := min (page * cap) maxU32
    let legacyEnd := min (min (start + cap) maxU32) log.legacy.length
    let result := (List.range' start (legacyEnd - start)).filterMap fun index => log.legacy[index]?
    log.copyPages cap cap (start - log.legacy.length) result

/-- The log holds what was appended, fifty entries a page. -/
structure Stores (log : VaultLog) (appended : List AuditEntry) : Prop where
  len : log.len = appended.length
  page : ∀ k, log.page k = (appended.drop (50 * k)).take 50

section Pages

variable {log : VaultLog} {appended : List AuditEntry}

variable (stores : Stores log appended)
include stores

theorem Stores.append {entry : AuditEntry} {next : VaultLog} (ran : log.append entry = .ok next) :
    next.legacy = log.legacy ∧ Stores next (appended ++ [entry]) := by
  unfold VaultLog.append at ran
  split at ran
  · cases ran
  cases ran
  refine ⟨rfl, by simp [stores.len], fun k => ext_getElem? fun i => ?_⟩
  have before := stores.page k
  have count := stores.len
  by_cases tail : k = log.len / 50
  · subst tail
    simp only [update_self, before, List.getElem?_append, List.getElem?_take, List.getElem?_drop,
      length_take, length_drop]
    grind
  · simp only [update_of_ne tail, before, List.getElem?_take, List.getElem?_drop, List.getElem?_append]
    grind

theorem Stores.copyPages (cap turns : Nat) : ∀ newIndex result,
    cap ≤ result.length + turns →
      log.copyPages cap turns newIndex result =
        result ++ (appended.drop newIndex).take (cap - result.length) := by
  induction turns with
  | zero =>
    intro newIndex result room
    rw [Nat.sub_eq_zero_of_le (show cap ≤ result.length from room), take_zero, append_nil]
    rfl
  | succ turns ih =>
    intro newIndex result room
    have entries : (log.page (newIndex / 50)).drop (newIndex % 50) =
        (appended.drop newIndex).take (50 - newIndex % 50) := by
      rw [stores.page, drop_take, drop_drop, Nat.div_add_mod]
    have size : (log.page (newIndex / 50)).length - newIndex % 50 =
        min (50 - newIndex % 50) (appended.length - newIndex) := by
      rw [← length_drop, entries, length_take, length_drop]
    simp only [VaultLog.copyPages, size, entries, stores.len]
    split
    case isTrue more =>
      obtain ⟨count, is⟩ : ∃ count, count = min (min (50 - newIndex % 50) (appended.length - newIndex))
        (cap - result.length) := ⟨_, rfl⟩
      have fits : count ≤ (appended.drop newIndex).length := by
        rw [length_drop]
        omega
      rw [← is, if_neg (by omega), take_take, Nat.min_eq_left (by omega)]
      have grown : (result ++ (appended.drop newIndex).take count).length = result.length + count := by
        rw [length_append, length_take_of_le fits]
      rw [ih _ _ (by omega), grown, append_assoc, ← drop_drop, ← take_add]
      congr 2
      omega
    case isFalse stop =>
      have nothing : (appended.drop newIndex).take (cap - result.length) = [] := by
        rw [take_eq_nil_iff, drop_eq_nil_iff]
        omega
      rw [nothing, append_nil]

theorem Stores.page_eq (short : (log.legacy ++ appended).length ≤ maxU32) (page pageSize : Nat) :
    getVaultAuditLogPage log page pageSize =
      ((log.legacy ++ appended).drop (page * min pageSize 50)).take (min pageSize 50) := by
  rw [length_append] at short
  have beyond : (log.legacy ++ appended).drop (page * min pageSize 50) =
      (log.legacy ++ appended).drop (min (page * min pageSize 50) maxU32) := by
    rcases Nat.le_total (page * min pageSize 50) maxU32 with fits | wide
    · rw [Nat.min_eq_left fits]
    · rw [Nat.min_eq_right wide, drop_eq_nil_of_le, drop_eq_nil_of_le] <;>
        rw [length_append] <;> omega
  rw [beyond, drop_append, take_append, getVaultAuditLogPage]
  generalize min (page * min pageSize 50) maxU32 = start
  by_cases none : min pageSize 50 = 0
  · simp [none]
  · have legacy : (log.legacy.drop start).take
        (min (min (start + min pageSize 50) maxU32) log.legacy.length - start) =
          (log.legacy.drop start).take (min pageSize 50) := by
      rw [take_eq_take_iff, length_drop]
      omega
    simp only [if_neg none]
    rw [filterMap_getElem?_range', legacy, stores.copyPages _ _ _ _ (Nat.le_add_left ..)]
    congr 2
    rw [length_take]
    omega

end Pages

def appended (calls : List (Nat × String × Address)) : List AuditEntry :=
  calls.map fun call => ⟨call.2.1, call.2.2, call.1, "", call.2.2, ""⟩

def appendAll (calls : List (Nat × String × Address)) (log : VaultLog) : Except Failure VaultLog :=
  calls.foldlM (fun log call => appendActivityLog call.1 call.2.1 call.2.2 log) log

theorem appendAll_stores (calls : List (Nat × String × Address)) : ∀ {log next : VaultLog}
    {before : List AuditEntry}, Stores log before → appendAll calls log = .ok next →
      next.legacy = log.legacy ∧ Stores next (before ++ appended calls) := by
  induction calls with
  | nil =>
    intro log next before stores ran
    cases ran
    exact ⟨rfl, (append_nil before).symm ▸ stores⟩
  | cons call rest ih =>
    intro log next before stores ran
    rw [appendAll, foldlM_cons] at ran
    cases first : appendActivityLog call.1 call.2.1 call.2.2 log with
    | error failure =>
      rw [first] at ran
      cases ran
    | ok middle =>
      rw [first] at ran
      obtain ⟨same, stored⟩ := stores.append first
      obtain ⟨kept, all⟩ := ih stored ran
      rw [append_assoc] at all
      exact ⟨kept.trans same, all⟩

/-- **The pages of the audit log are complete.** -/
theorem audit_pages {legacy : List AuditEntry} {calls : List (Nat × String × Address)} {log : VaultLog}
    (ran : appendAll calls { legacy := legacy } = .ok log)
    (short : (legacy ++ appended calls).length ≤ maxU32) {pageSize : Nat} (size : 0 < pageSize) :
    (∀ page, getVaultAuditLogPage log page pageSize =
      ((legacy ++ appended calls).drop (page * min pageSize 50)).take (min pageSize 50)) ∧
    ∀ pages, (legacy ++ appended calls).length ≤ pages →
      (List.range pages).flatMap (getVaultAuditLogPage log · pageSize) = legacy ++ appended calls := by
  have empty : Stores { legacy := legacy } [] := ⟨rfl, fun _ => by simp⟩
  obtain ⟨rfl, stores⟩ := appendAll_stores calls empty ran
  have slice := fun page => stores.page_eq short page pageSize
  refine ⟨slice, fun pages enough => ?_⟩
  have covers := Nat.le_mul_of_pos_right pages (show 0 < min pageSize 50 by omega)
  rw [funext slice]
  exact (flatMap_slices _ _ _).trans (take_of_length_le (enough.trans covers))

def oldLog : List AuditEntry := [⟨"created", ⟨3⟩, 1000, "", ⟨3⟩, ""⟩]

def busyCalls : List (Nat × String × Address) :=
  (List.range 120).map fun k => (2000 + k, "withdraw", ⟨3⟩)

/-- Three pages are appended. -/
theorem audit_pages_busyCalls :
    (appendAll busyCalls { legacy := oldLog }).map
        (fun log => (List.range 121).flatMap (getVaultAuditLogPage log · 30)) =
      .ok (oldLog ++ appended busyCalls) := by
  have ok : (appendAll busyCalls { legacy := oldLog }).isOk = true := by decide +kernel
  cases ran : appendAll busyCalls { legacy := oldLog } with
  | error =>
    rw [ran] at ok
    cases ok
  | ok log => exact congrArg Except.ok ((audit_pages ran (by decide) (by decide)).2 121 (by decide))

/-- With the page size 0 no page holds the entry; and in a log of more than `2 ^ 32` entries a page
that starts beyond is empty. -/
theorem no_page_of_size_zero :
    appendAll [] { legacy := oldLog } = .ok { legacy := oldLog } ∧
      (∀ pages, (List.range pages).flatMap (getVaultAuditLogPage { legacy := oldLog } · 0) ≠
        oldLog ++ appended []) ∧
      ∀ legacy : List AuditEntry, legacy.length = 2 ^ 32 + 60 →
        getVaultAuditLogPage { legacy := legacy } 85899346 50 = [] ∧
          (legacy.drop (85899346 * 50)).take 50 ≠ [] := by
  refine ⟨rfl, fun pages same => ?_, fun legacy length => ⟨?_, ?_⟩⟩
  · have empty : (List.range pages).flatMap (getVaultAuditLogPage { legacy := oldLog } · 0) = [] :=
      flatMap_eq_nil_iff.mpr fun page _ => rfl
    cases empty.symm.trans same
  · simp [getVaultAuditLogPage, VaultLog.copyPages, maxU32, length]
  · simp [length]

end EthosContracts.TtlVault.AuditLog
