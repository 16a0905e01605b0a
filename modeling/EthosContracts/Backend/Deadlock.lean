/-
**The deadlock detector** (`acquire_lock`, `release_lock`).

Who cannot have a resource is added to its waiters. Before that, `check_cycle_inner` asks whether
the holder of the resource waits for something that the new holder has.
-/

import Mathlib.Data.List.AList
import Mathlib.Logic.Relation
import EthosContracts.Lib.Replay

namespace EthosContracts.Backend.Deadlock

open Lib List

structure LockEntry where
  holder : String
  waiters : List String

structure DeadlockDetector where
  activeLocks : AList fun _ : String => LockEntry := ∅
  deadlockCount : Nat := 0

inductive Acquired
  | ok
  | deadlock (resources : List String)
  | timeout (resource : String) (waitedMs : Nat)

variable (s : DeadlockDetector) (resource holder : String)

def checkCycleInner (newHolder : String) : Bool :=
  let heldByNewHolder := (s.activeLocks.entries.filter (·.2.holder = newHolder)).map Sigma.fst
  if heldByNewHolder = [] then false
  else match s.activeLocks.lookup resource with
    | some current => heldByNewHolder.any fun held =>
        (s.activeLocks.lookup held).any fun entry => entry.waiters.contains current.holder
    | none => false

def acquireLock : Acquired × DeadlockDetector :=
  match s.activeLocks.lookup resource with
  | some entry =>
    if entry.holder = holder then (.ok, s)
    else if checkCycleInner s resource holder then
      (.deadlock s.activeLocks.keys, { s with deadlockCount := s.deadlockCount + 1 })
    else (.timeout resource 0, { s with
      activeLocks := s.activeLocks.insert resource ⟨entry.holder, entry.waiters ++ [holder]⟩ })
  | none => (.ok, { s with activeLocks := s.activeLocks.insert resource ⟨holder, []⟩ })

def releaseLock : DeadlockDetector :=
  match s.activeLocks.lookup resource with
  | some entry =>
    if entry.holder = holder then { s with activeLocks := s.activeLocks.erase resource } else s
  | none => s

inductive LockCall
  | acquireLock (resource holder : String)
  | releaseLock (resource holder : String)

def LockCall.after (s : DeadlockDetector) : LockCall → DeadlockDetector
  | .acquireLock resource holder => (Deadlock.acquireLock s resource holder).2
  | .releaseLock resource holder => Deadlock.releaseLock s resource holder

def exec (call : LockCall) : Tx Empty DeadlockDetector Unit := write call.after

abbrev LockEvent : Type := Event DeadlockDetector LockCall

abbrev LockRun : List LockEvent → DeadlockDetector → Prop := Run (Executes exec) {}

/-! ### Waiting -/

/-- The resource is locked by this holder. -/
def HeldBy : Prop := (s.activeLocks.lookup resource).any (·.holder = holder) = true

variable (event : LockEvent)

/-- The holder asks, and is told that the resource is taken. -/
def TimedOut : Prop :=
  match event.input with
  | .acquireLock wanted caller => (acquireLock event.before wanted caller).1 = .timeout resource 0 ∧
      caller = holder
  | .releaseLock _ _ => False

/-- The call frees the resource. -/
def Released : Prop :=
  ∃ owner, event.input = .releaseLock resource owner ∧ HeldBy event.before resource owner

/-- The holder's call on the resource timed out, and it has not been released since; the last event
comes first. -/
def Waits : List LockEvent → Prop
  | [] => False
  | event :: earlier => TimedOut resource holder event ∨ ¬ Released resource event ∧ Waits earlier

/-- **One holder waits for another.** -/
def WaitsFor (history : List LockEvent) (s : DeadlockDetector) (waiter owner : String) : Prop :=
  ∃ resource, Waits resource waiter history.reverse ∧ HeldBy s resource owner

/-- **The answer is a deadlock exactly if the wait would close a cycle.** -/
def Detects (history : List LockEvent) : Prop :=
  (∃ resources, (acquireLock s resource holder).1 = .deadlock resources) ↔
    ∃ owner ≠ holder, HeldBy s resource owner ∧ Relation.TransGen (WaitsFor history s) owner holder

variable {s resource holder event} {history : List LockEvent} {owner : String}

/-- The waiters of a resource, none if it is free. -/
def waitersOf (s : DeadlockDetector) (resource : String) : List String :=
  ((s.activeLocks.lookup resource).map LockEntry.waiters).getD []

theorem heldBy_iff : HeldBy s resource owner ↔
    ∃ entry, s.activeLocks.lookup resource = some entry ∧ entry.holder = owner := by
  unfold HeldBy
  cases s.activeLocks.lookup resource <;> simp

theorem checkCycleInner_iff (held : HeldBy s resource owner) : checkCycleInner s resource holder ↔
    ∃ other, HeldBy s other holder ∧ owner ∈ waitersOf s other := by
  obtain ⟨current, found, rfl⟩ := heldBy_iff.mp held
  simp only [checkCycleInner, found]
  constructor
  · intro cycle
    split at cycle
    · cases cycle
    · obtain ⟨other, listed, waits⟩ := any_eq_true.mp cycle
      obtain ⟨⟨_, entry⟩, kept, rfl⟩ := mem_map.mp listed
      obtain ⟨member, mine⟩ := mem_filter.mp kept
      have stored := AList.mem_lookup_iff.mpr member
      rw [Option.mem_def] at stored
      refine ⟨_, heldBy_iff.mpr ⟨entry, stored, by simpa using mine⟩, ?_⟩
      simpa [waitersOf, stored] using waits
  · rintro ⟨other, mine, waits⟩
    obtain ⟨entry, stored, rfl⟩ := heldBy_iff.mp mine
    have listed : other ∈ (s.activeLocks.entries.filter (·.2.holder = entry.holder)).map Sigma.fst :=
      mem_map.mpr ⟨⟨other, entry⟩, mem_filter.mpr ⟨AList.mem_lookup_iff.mp stored, by simp⟩, rfl⟩
    rw [if_neg (ne_nil_of_mem listed), any_eq_true]
    exact ⟨other, listed, by simpa [waitersOf, stored] using waits⟩

theorem deadlock_iff : (∃ resources, (acquireLock s resource holder).1 = .deadlock resources) ↔
    ∃ owner ≠ holder, HeldBy s resource owner ∧
      ∃ other, HeldBy s other holder ∧ owner ∈ waitersOf s other := by
  unfold acquireLock
  cases found : s.activeLocks.lookup resource with
  | none => simp [HeldBy, found]
  | some entry =>
    have held : HeldBy s resource entry.holder := heldBy_iff.mpr ⟨entry, found, rfl⟩
    have only owner : HeldBy s resource owner ↔ entry.holder = owner := by simp [HeldBy, found]
    by_cases own : entry.holder = holder
    · simp [own, only, eq_comm]
    · simp only [own, if_false, only]
      by_cases cycle : checkCycleInner s resource holder = true
      · simpa [cycle, own] using (checkCycleInner_iff held).mp cycle
      · have absent := mt (checkCycleInner_iff held).mpr cycle
        simpa [cycle, own] using absent

theorem waitersOf_insert (entry : LockEntry) (other : String) :
    waitersOf { s with activeLocks := s.activeLocks.insert resource entry } other =
      if other = resource then entry.waiters else waitersOf s other := by
  unfold waitersOf
  split
  · subst other
    rw [AList.lookup_insert]
    rfl
  · rename_i ne
    rw [AList.lookup_insert_ne ne]

theorem mem_waitersOf_after (call : LockCall) {waiter : String} :
    waiter ∈ waitersOf (call.after s) resource ↔ TimedOut resource waiter ⟨s, call, call.after s⟩ ∨
      ¬ Released resource ⟨s, call, call.after s⟩ ∧ waiter ∈ waitersOf s resource := by
  cases call with
  | acquireLock wanted caller =>
    simp only [LockCall.after, TimedOut, Released, acquireLock, reduceCtorEq, false_and, exists_false,
      not_false_eq_true, true_and]
    cases found : s.activeLocks.lookup wanted with
    | none =>
      rw [waitersOf_insert]
      split
      · subst wanted
        simp [waitersOf, found]
      · simp
    | some entry =>
      by_cases own : entry.holder = caller
      · simp [own]
      · by_cases cycle : checkCycleInner s wanted caller = true
        · simp [own, cycle, waitersOf]
        · simp only [own, cycle, Bool.false_eq_true, if_false, waitersOf_insert]
          split
          · subst wanted
            simp [waitersOf, found, or_comm, eq_comm]
          · rename_i ne
            simp [Ne.symm ne]
  | releaseLock freed caller =>
    simp only [LockCall.after, TimedOut, Released, LockCall.releaseLock.injEq, releaseLock, false_or]
    by_cases same : resource = freed
    · subst freed
      cases found : s.activeLocks.lookup resource with
      | none => simp [waitersOf, HeldBy, found]
      | some entry =>
        by_cases own : entry.holder = caller
        · simp [waitersOf, HeldBy, found, own]
        · simp [waitersOf, HeldBy, found, own]
    · have kept : (releaseLock s freed caller).activeLocks.lookup resource =
          s.activeLocks.lookup resource := by
        unfold releaseLock
        split
        · split
          · exact AList.lookup_erase_ne same
          · rfl
        · rfl
      simp only [releaseLock] at kept
      simp [waitersOf, kept, Ne.symm same]

theorem run_waits (run : LockRun history s) (waiter : String) :
    ∀ resource, waiter ∈ waitersOf s resource ↔ Waits resource waiter history.reverse := by
  induction run with
  | nil => simp [waitersOf, Waits]
  | snoc run stepped ih =>
    cases stepped
    intro resource
    rw [mem_waitersOf_after, ih, reverse_append]
    rfl

/-- **When deadlocks are detected.** In every run, for every call: exactly if the new holder is
waited for in one step wherever it is in several. -/
theorem detects_iff (run : LockRun history s) : Detects s resource holder history ↔
    ∀ owner ≠ holder, HeldBy s resource owner →
      Relation.TransGen (WaitsFor history s) owner holder → WaitsFor history s owner holder := by
  have step : (∃ resources, (acquireLock s resource holder).1 = .deadlock resources) ↔
      ∃ owner ≠ holder, HeldBy s resource owner ∧ WaitsFor history s owner holder := by
    simp only [deadlock_iff, run_waits run, WaitsFor, and_comm]
  rw [Detects, step]
  constructor
  · intro exact_ owner other held reached
    obtain ⟨same, -, alsoHeld, waits⟩ := exact_.mpr ⟨owner, other, held, reached⟩
    obtain ⟨entry, stored, rfl⟩ := heldBy_iff.mp held
    obtain ⟨_, again, rfl⟩ := heldBy_iff.mp alsoHeld
    cases stored.symm.trans again
    exact waits
  · intro direct
    constructor
    · rintro ⟨owner, other, held, waits⟩
      exact ⟨owner, other, held, .single waits⟩
    · rintro ⟨owner, other, held, reached⟩
      exact ⟨owner, other, held, direct owner other held reached⟩

def threeHolders : List LockEvent × DeadlockDetector :=
  play exec {} [.acquireLock "1" "a", .acquireLock "2" "b", .acquireLock "3" "c",
    .acquireLock "1" "b", .acquireLock "2" "c"]

theorem threeHolders_waitsFor {waiter owner : String} (resource : String)
    (waits : waiter ∈ waitersOf threeHolders.2 resource) (held : HeldBy threeHolders.2 resource owner) :
    WaitsFor threeHolders.1 threeHolders.2 waiter owner :=
  ⟨resource, (run_waits (play_executes _ _ _) waiter resource).mp waits, held⟩

theorem detects_pair : Detects threeHolders.2 "2" "a" threeHolders.1 := by
  refine (detects_iff (play_executes _ _ _)).mpr fun owner other held _ => ?_
  obtain rfl : "b" = owner := of_decide_eq_true held
  exact threeHolders_waitsFor "1" (by decide) rfl

/-- **A cycle of three is not detected.** -/
theorem cycle_of_three : LockRun threeHolders.1 threeHolders.2 ∧
    ¬ Detects threeHolders.2 "3" "a" threeHolders.1 := by
  refine ⟨play_executes _ _ _, fun detects => ?_⟩
  have second : WaitsFor threeHolders.1 threeHolders.2 "c" "b" :=
    threeHolders_waitsFor "2" (by decide) rfl
  have first : WaitsFor threeHolders.1 threeHolders.2 "b" "a" :=
    threeHolders_waitsFor "1" (by decide) rfl
  obtain ⟨_, found⟩ := detects.mpr ⟨"c", by decide, rfl, .head second (.single first)⟩
  cases found

/-! ### Waiting for each other -/

theorem lookup_insert_cases {wanted : String} {new entry : LockEntry}
    (stored : (s.activeLocks.insert wanted new).lookup resource = some entry) :
    resource = wanted ∧ new = entry ∨ s.activeLocks.lookup resource = some entry := by
  by_cases same : resource = wanted
  · subst same
    rw [AList.lookup_insert] at stored
    exact .inl ⟨rfl, Option.some.inj stored⟩
  · rw [AList.lookup_insert_ne same] at stored
    exact .inr stored

/-- A resource that is waited for keeps its holder. -/
theorem heldBy_of_after (call : LockCall) {waiter : String}
    (waits : waiter ∈ waitersOf (call.after s) resource)
    (held : HeldBy (call.after s) resource owner) : HeldBy s resource owner := by
  obtain ⟨entry, stored, rfl⟩ := heldBy_iff.mp held
  rw [waitersOf, stored] at waits
  suffices before : ∃ old ∈ s.activeLocks.lookup resource, old.holder = entry.holder from
    heldBy_iff.mpr before
  cases call with
  | acquireLock wanted caller =>
    simp only [LockCall.after, acquireLock] at stored
    split at stored
    · rename_i current found
      split_ifs at stored
      · exact ⟨entry, stored, rfl⟩
      · exact ⟨entry, stored, rfl⟩
      · rcases lookup_insert_cases stored with ⟨rfl, rfl⟩ | kept
        · exact ⟨current, found, rfl⟩
        · exact ⟨entry, kept, rfl⟩
    · rcases lookup_insert_cases stored with ⟨-, rfl⟩ | kept
      · cases waits
      · exact ⟨entry, kept, rfl⟩
  | releaseLock freed caller =>
    simp only [LockCall.after, releaseLock] at stored
    split at stored
    · split_ifs at stored
      · by_cases same : resource = freed
        · rw [same, AList.lookup_erase] at stored
          cases stored
        · rw [AList.lookup_erase_ne same] at stored
          exact ⟨entry, stored, rfl⟩
      · exact ⟨entry, stored, rfl⟩
    · exact ⟨entry, stored, rfl⟩

/-- A call that times out closes no cycle of one or two. -/
theorem not_waiting_of_timedOut {call : LockCall} {waiter other : String}
    (timedOut : TimedOut resource waiter ⟨s, call, call.after s⟩) (held : HeldBy s resource owner)
    (mine : HeldBy s other waiter) :
    ¬ (TimedOut other owner ⟨s, call, call.after s⟩ ∨ owner ∈ waitersOf s other) := by
  cases call with
  | releaseLock => cases timedOut
  | acquireLock wanted caller =>
    obtain ⟨answer, rfl⟩ := timedOut
    simp only [acquireLock] at answer
    split at answer
    · rename_i entry stored
      split_ifs at answer with own cycle
      obtain ⟨rfl, -⟩ := Acquired.timeout.inj answer
      obtain ⟨_, again, holds⟩ := heldBy_iff.mp held
      cases stored.symm.trans again
      rintro (⟨-, same⟩ | waits)
      · exact own (holds.trans same.symm)
      · exact cycle ((checkCycleInner_iff held).mpr ⟨other, mine, waits⟩)
    · cases answer

/-- **No two holders ever wait for each other.** -/
theorem not_waitsFor_each_other (run : LockRun history s) {first second : String}
    (waits : WaitsFor history s first second) : ¬ WaitsFor history s second first := by
  simp only [WaitsFor, ← run_waits run] at waits ⊢
  induction run generalizing first second with
  | nil =>
    obtain ⟨_, waits, -⟩ := waits
    cases waits
  | snoc run stepped ih =>
    cases stepped
    obtain ⟨resource, waits, held⟩ := waits
    rintro ⟨other, waits', held'⟩
    have before := heldBy_of_after _ waits held
    have before' := heldBy_of_after _ waits' held'
    have old' := ((mem_waitersOf_after _).mp waits').imp_right And.right
    rcases (mem_waitersOf_after _).mp waits with timedOut | ⟨-, old⟩
    · exact not_waiting_of_timedOut timedOut before before' old'
    · rcases old' with timedOut' | old'
      · exact not_waiting_of_timedOut timedOut' before' before (.inr old)
      · exact ih ⟨resource, old, before⟩ ⟨other, old', before'⟩

theorem not_waitsFor_each_other_threeHolders : ¬ WaitsFor threeHolders.1 threeHolders.2 "a" "b" :=
  not_waitsFor_each_other (play_executes _ _ _) (threeHolders_waitsFor "1" (by decide) rfl)

end EthosContracts.Backend.Deadlock
