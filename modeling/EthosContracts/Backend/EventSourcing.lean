/-
**The event log of the backend** (`event_sourcing.rs`, with the `events` table of `db.rs`).

The number of the next event of a vault stands in memory, the events themselves in a table whose
primary key is the vault and the number. A failed `append` keeps the number it has taken.

The texts that `serde_json` and `chrono` write and parse are parameters (`Formats`).
-/

import Mathlib.Algebra.Group.Nat.Defs
import Mathlib.Algebra.Ring.Int.Defs
import Mathlib.Data.List.Sort
import Mathlib.Logic.Function.Basic
import EthosContracts.Lib.Numbering
import EthosContracts.Lib.Procedure

namespace EthosContracts.Backend.EventSourcing

open Lib Lib.Proc Function List

def maxU64 : Nat := 2 ^ 64 - 1

def asI64 (n : Nat) : Int := if n < 2 ^ 63 then n else n - 2 ^ 64

def asU64 (i : Int) : Nat := (i % 2 ^ 64).toNat

def asU32 (i : Int) : Nat := (i % 2 ^ 32).toNat

theorem asU64_asI64 {n : Nat} (fits : n ≤ maxU64) : asU64 (asI64 n) = n := by
  unfold asI64 asU64
  unfold maxU64 at fits
  split <;> omega

theorem asI64_inj {m n : Nat} (left : m ≤ maxU64) (right : n ≤ maxU64) :
    asI64 m = asI64 n ↔ m = n := by
  constructor
  · intro same
    rw [← asU64_asI64 left, same, asU64_asI64 right]
  · exact congrArg asI64

/-- How values of a type are written as text, and read. -/
structure TextForm (α : Type) where
  write : α → String
  parse : String → Except String α

/-- The texts of JSON values and times. -/
structure Formats (Json Time : Type) where
  json : TextForm Json
  rfc3339 : TextForm Time

/-! ### Events -/

inductive EventType
  | checkIn
  | ttlUpdate
  | statusChange
  | deposit
  | withdrawal
  | release
deriving DecidableEq

/-- The name that `{:?}` writes. -/
def EventType.debug : EventType → String
  | .checkIn => "CheckIn"
  | .ttlUpdate => "TtlUpdate"
  | .statusChange => "StatusChange"
  | .deposit => "Deposit"
  | .withdrawal => "Withdrawal"
  | .release => "Release"

inductive EventSourcingError
  | lockPoisoned
  | vaultNotFound (id : String)
  | serialization (cause : String)
  | databaseError (cause : String)
deriving DecidableEq

def parseEventType (s : String) : Except EventSourcingError EventType :=
  match s with
  | "CheckIn" => .ok .checkIn
  | "TtlUpdate" => .ok .ttlUpdate
  | "StatusChange" => .ok .statusChange
  | "Deposit" => .ok .deposit
  | "Withdrawal" => .ok .withdrawal
  | "Release" => .ok .release
  | _ => .error (.databaseError ("unknown event type: " ++ s))

@[simp] theorem parseEventType_debug (eventType : EventType) :
    parseEventType eventType.debug = .ok eventType := by
  cases eventType <;> rfl

def currentSchemaVersion : Nat := 1

structure StoredEvent (Json Time : Type) where
  vaultId : String
  sequence : Nat
  eventType : EventType
  timestamp : Time
  data : Json
  schemaVersion : Nat
deriving DecidableEq

variable {Json Time : Type}

def StoredEvent.new (id : String) (sequence : Nat) (eventType : EventType) (data : Json)
    (now : Time) : StoredEvent Json Time where
  vaultId := id
  sequence := sequence
  eventType := eventType
  timestamp := now
  data := data
  schemaVersion := currentSchemaVersion

/-! ### The table -/

/-- A row of `events`; its numbers are `INTEGER`s of SQLite. -/
structure EventRow where
  vaultId : String
  sequence : Int
  eventType : String
  timestamp : String
  data : String
  schemaVersion : Int
deriving DecidableEq

structure Db where
  events : List EventRow
deriving DecidableEq

/-- The insertion of a row; its vault and number are the primary key. -/
def Db.appendEvent (forms : Formats Json Time) (db : Db) (id : String) (sequence : Nat)
    (eventType : String) (timestamp : Time) (data : String) (schemaVersion : Nat) :
    Except String Db :=
  if ∃ row ∈ db.events, row.vaultId = id ∧ row.sequence = asI64 sequence then
    .error "UNIQUE constraint failed: events.vault_id, events.sequence"
  else
    .ok ⟨db.events ++ [⟨id, asI64 sequence, eventType, forms.rfc3339.write timestamp, data,
      schemaVersion⟩]⟩

/-- The rows of a vault, `ORDER BY sequence ASC`. -/
def Db.getEventsForVault (db : Db) (id : String) : List EventRow :=
  (db.events.filter (·.vaultId = id)).insertionSort (·.sequence ≤ ·.sequence)

/-! ### The log -/

structure EventLog (Json Time : Type) where
  events : List (StoredEvent Json Time)
  /-- The next number of each vault. -/
  sequences : String → Option Nat
  /-- A thread has panicked while it held the lock of `sequences`. -/
  poisoned : Bool
  db : Option Db

def EventLog.new : EventLog Json Time := ⟨[], fun _ => none, false, none⟩

def EventLog.withDb (db : Db) : EventLog Json Time := ⟨[], fun _ => none, false, some db⟩

/-- How an append ends other than with a number. -/
inductive AppendFailure
  | error (cause : EventSourcingError)
  /-- The addition to the counter panics. -/
  | overflow
deriving DecidableEq

/-- The number of a new event: the next one of its vault, which then moves on. -/
def takeNumber (vaultId : String) : Proc AppendFailure (EventLog Json Time) Nat := do
  let log ← read id
  ensure (log.poisoned = false) (.error .lockPoisoned)
  let assigned := (log.sequences vaultId).getD 1
  if assigned < maxU64 then
    write fun log => { log with
      sequences := update log.sequences vaultId (some (assigned + 1)) }
    pure assigned
  else
    write fun log => { log with
      sequences := update log.sequences vaultId (some assigned)
      poisoned := true }
    throw .overflow

def persist (forms : Formats Json Time) (event : StoredEvent Json Time) :
    Proc AppendFailure (EventLog Json Time) Unit := do
  let log ← read id
  match log.db with
  | none => pure ()
  | some db =>
    match db.appendEvent forms event.vaultId event.sequence event.eventType.debug event.timestamp
        (forms.json.write event.data) event.schemaVersion with
    | .ok stored => write fun log => { log with db := some stored }
    | .error cause => throw (.error (.databaseError cause))

def append (forms : Formats Json Time) (now : Time) (id : String) (eventType : EventType)
    (data : Json) : Proc AppendFailure (EventLog Json Time) Nat := do
  let seq ← takeNumber id
  let event := StoredEvent.new id seq eventType data now
  persist forms event
  write fun log => { log with events := log.events ++ [event] }
  pure seq

def readRow (forms : Formats Json Time) (id : String) (row : EventRow) :
    Except EventSourcingError (StoredEvent Json Time) := do
  let timestamp ← (forms.rfc3339.parse row.timestamp).mapError fun _ =>
    EventSourcingError.databaseError ("invalid timestamp: " ++ row.timestamp)
  let data ← (forms.json.parse row.data).mapError .serialization
  let eventType ← parseEventType row.eventType
  pure ⟨id, asU64 row.sequence, eventType, timestamp, data, asU32 row.schemaVersion⟩

def sortBySequence (events : List (StoredEvent Json Time)) : List (StoredEvent Json Time) :=
  events.insertionSort (·.sequence ≤ ·.sequence)

def EventLog.eventsForVault (forms : Formats Json Time) (log : EventLog Json Time)
    (id : String) : Except EventSourcingError (List (StoredEvent Json Time)) :=
  match log.db with
  | some db => do
    let result ← (db.getEventsForVault id).mapM (readRow forms id)
    pure (sortBySequence result)
  | none => .ok (sortBySequence (log.events.filter (·.vaultId = id)))

/-! ### Histories -/

structure AppendCall (Json Time : Type) where
  vaultId : String
  eventType : EventType
  data : Json
  now : Time
deriving DecidableEq

inductive Input (Json Time : Type)
  | append (call : AppendCall Json Time)
  /-- The process ends, and a new one opens the same database. -/
  | restart

def AppendCall.event (call : AppendCall Json Time) (sequence : Nat) : StoredEvent Json Time :=
  .new call.vaultId sequence call.eventType call.data call.now

def EventLog.restarted (log : EventLog Json Time) : EventLog Json Time :=
  match log.db with
  | some db => .withDb db
  | none => .new

/-- The log, and what the appends have answered. -/
structure Session (Json Time : Type) where
  log : EventLog Json Time
  answers : List (AppendCall Json Time × Except AppendFailure Nat)

def Session.next (forms : Formats Json Time) (session : Session Json Time) :
    Input Json Time → Session Json Time
  | .append call =>
    let appended := append forms call.now call.vaultId call.eventType call.data
    ⟨appended.after session.log, session.answers ++ [(call, appended.result session.log)]⟩
  | .restart => { session with log := session.log.restarted }

/-- The log after appends and restarts, with the answers of the appends. -/
def history (forms : Formats Json Time) (inputs : List (Input Json Time)) : Session Json Time :=
  inputs.foldl (Session.next forms) ⟨.withDb ⟨[]⟩, []⟩

def Input.call? : Input Json Time → Option (AppendCall Json Time)
  | .append call => some call
  | .restart => none

def appends (inputs : List (Input Json Time)) : List (AppendCall Json Time) :=
  inputs.filterMap Input.call?

/-- **The log keeps counting**: the answers for a vault are 1, 2, 3, …, and its events are the
appended ones. -/
structure KeepsCounting (forms : Formats Json Time) (inputs : List (Input Json Time)) : Prop where
  numbers : ∀ id, ((history forms inputs).answers.filter fun answer =>
      answer.1.vaultId = id).map Prod.snd =
    (List.range' 1 (ofKey AppendCall.vaultId id (appends inputs)).length).map .ok
  events : ∀ id, (history forms inputs).log.eventsForVault forms id =
    .ok (((ofKey AppendCall.vaultId id (appends inputs)).zipIdx 1).map fun entry =>
      entry.1.event entry.2)

/-! ### What decides -/

/-- The appends before the last restart, and those since. -/
def processes (inputs : List (Input Json Time)) :
    List (AppendCall Json Time) × List (AppendCall Json Time) :=
  inputs.foldl (fun parts input =>
    match input with
    | .append call => (parts.1, parts.2 ++ [call])
    | .restart => (parts.1 ++ parts.2, [])) ([], [])

/-- **An append that the log counts rightly**: nothing was appended to the vault before a restart,
its counter has room, and what is written as text is read back. -/
structure Continues (forms : Formats Json Time) (before : List (Input Json Time))
    (call : AppendCall Json Time) : Prop where
  sameProcess : ∀ earlier later, before = earlier ++ .restart :: later →
    ∀ old ∈ appends earlier, old.vaultId ≠ call.vaultId
  room : (ofKey AppendCall.vaultId call.vaultId (appends before)).length + 1 < maxU64
  payload : forms.json.parse (forms.json.write call.data) = .ok call.data
  time : forms.rfc3339.parse (forms.rfc3339.write call.now) = .ok call.now

section Parts

variable {inputs : List (Input Json Time)} {call old : AppendCall Json Time}

@[simp] theorem appends_append : appends (inputs ++ [.append call]) = appends inputs ++ [call] := by
  rw [appends, filterMap_append]
  rfl

@[simp] theorem appends_restart : appends (inputs ++ [.restart]) = appends inputs := by
  rw [appends, filterMap_append]
  exact append_nil _

@[simp] theorem processes_append : processes (inputs ++ [.append call]) =
    ((processes inputs).1, (processes inputs).2 ++ [call]) := by
  rw [processes, foldl_append]
  rfl

@[simp] theorem processes_restart : processes (inputs ++ [.restart]) =
    ((processes inputs).1 ++ (processes inputs).2, []) := by
  rw [processes, foldl_append]
  rfl

theorem appends_eq_processes (inputs : List (Input Json Time)) :
    appends inputs = (processes inputs).1 ++ (processes inputs).2 := by
  induction inputs using List.reverseRecOn with
  | nil => rfl
  | append_singleton inputs input ih =>
    cases input with
    | append call => simp [ih]
    | restart => simp [ih]

theorem forall_earlier_iff {Q : AppendCall Json Time → Prop} (inputs : List (Input Json Time)) :
    (∀ old ∈ (processes inputs).1, Q old) ↔
      ∀ earlier later, inputs = earlier ++ .restart :: later → ∀ old ∈ appends earlier, Q old := by
  have restarts : (∀ earlier later, inputs = earlier ++ .restart :: later →
      ∀ old ∈ appends earlier, Q old) ↔ ∀ before input after, inputs = before ++ input :: after →
        input = .restart → ∀ old ∈ appends before, Q old := by
    constructor
    · intro each before input after whole restart
      subst restart
      exact each before after whole
    · exact fun each earlier later whole => each earlier _ later whole rfl
  rw [restarts]
  clear restarts
  induction inputs using List.reverseRecOn with
  | nil => simp [processes]
  | append_singleton inputs input ih =>
    have split := forall_split_concat (fun before input =>
      input = Input.restart → ∀ old ∈ appends before, Q old) inputs input
    refine Iff.trans ?_ (split.trans (and_congr ih.symm Iff.rfl)).symm
    cases input with
    | append call => simp
    | restart =>
      rw [processes_restart, appends_eq_processes inputs, forall_mem_append]
      simp

end Parts

/-! ### One append -/

def rowOf (forms : Formats Json Time) (event : StoredEvent Json Time) : EventRow where
  vaultId := event.vaultId
  sequence := asI64 event.sequence
  eventType := event.eventType.debug
  timestamp := forms.rfc3339.write event.timestamp
  data := forms.json.write event.data
  schemaVersion := event.schemaVersion

section OneAppend

variable {forms : Formats Json Time} {log t : EventLog Json Time} {db : Db}
  {call : AppendCall Json Time} {event : StoredEvent Json Time} {n : Nat}

theorem takeNumber_eq_ok_iff (sound : log.poisoned = false) :
    takeNumber call.vaultId log = .ok n t ↔
      n = (log.sequences call.vaultId).getD 1 ∧ n < maxU64 ∧ t = { log with
        sequences := update log.sequences call.vaultId (some (n + 1)) } := by
  by_cases room : (log.sequences call.vaultId).getD 1 < maxU64
  · have taken : takeNumber call.vaultId log = .ok ((log.sequences call.vaultId).getD 1) { log with
        sequences := update log.sequences call.vaultId
          (some ((log.sequences call.vaultId).getD 1 + 1)) } := by
      simp [takeNumber, bind, EStateM.bind, Proc.read, ensure, sound, room, write, pure, EStateM.pure]
    rw [taken, EStateM.Result.ok.injEq]
    constructor
    · intro same
      obtain ⟨rfl, rfl⟩ := same
      exact ⟨rfl, room, rfl⟩
    · intro same
      obtain ⟨rfl, -, rfl⟩ := same
      exact ⟨rfl, rfl⟩
  · have failed : takeNumber call.vaultId log = .error .overflow { log with
        sequences := update log.sequences call.vaultId (some ((log.sequences call.vaultId).getD 1))
        poisoned := true } := by
      simp [takeNumber, bind, EStateM.bind, Proc.read, ensure, sound, room, write]
      rfl
    rw [failed]
    constructor
    · intro same
      cases same
    · intro same
      obtain ⟨rfl, small, -⟩ := same
      exact absurd small room

theorem persist_eq_ok_iff (stored : log.db = some db) : persist forms event log = .ok () t ↔
      (∀ row ∈ db.events, row.vaultId = event.vaultId → row.sequence ≠ asI64 event.sequence) ∧
        t = { log with db := some ⟨db.events ++ [rowOf forms event]⟩ } := by
  by_cases taken : ∃ row ∈ db.events,
      row.vaultId = event.vaultId ∧ row.sequence = asI64 event.sequence
  · have failed : persist forms event log = .error (.error (.databaseError
        "UNIQUE constraint failed: events.vault_id, events.sequence")) log := by
      simp only [persist, bind, EStateM.bind, Proc.read, id_eq, stored, Db.appendEvent, if_pos taken]
      rfl
    obtain ⟨row, member, same, number⟩ := taken
    rw [failed]
    constructor
    · intro ended
      cases ended
    · intro free
      exact absurd number (free.1 row member same)
  · have kept : persist forms event log =
        .ok () { log with db := some ⟨db.events ++ [rowOf forms event]⟩ } := by
      simp only [persist, bind, EStateM.bind, Proc.read, id_eq, stored, Db.appendEvent, if_neg taken]
      rfl
    have free : ∀ row ∈ db.events, row.vaultId = event.vaultId →
        row.sequence ≠ asI64 event.sequence := fun row member same number =>
      taken ⟨row, member, same, number⟩
    rw [kept, EStateM.Result.ok.injEq]
    constructor
    · intro same
      exact ⟨free, same.2.symm⟩
    · intro same
      exact ⟨rfl, same.2.symm⟩

theorem append_eq_ok_iff (sound : log.poisoned = false) (stored : log.db = some db) :
    append forms call.now call.vaultId call.eventType call.data log = .ok n t ↔
      n = (log.sequences call.vaultId).getD 1 ∧ n < maxU64 ∧
        (∀ row ∈ db.events, row.vaultId = call.vaultId → row.sequence ≠ asI64 n) ∧
        t = { log with
          events := log.events ++ [call.event n]
          sequences := update log.sequences call.vaultId (some (n + 1))
          db := some ⟨db.events ++ [rowOf forms (call.event n)]⟩ } := by
  unfold append
  simp only [bind_eq_ok_iff, takeNumber_eq_ok_iff sound, write_eq_ok_iff, pure_eq_ok_iff]
  have same : { log with
      sequences := update log.sequences call.vaultId (some (n + 1)) }.db = some db := stored
  constructor
  · intro ran
    obtain ⟨m, _, ⟨taken, room, rfl⟩, ⟨⟩, _, persisted, ⟨⟩, _, rfl, rfl, rfl⟩ := ran
    obtain ⟨free, rfl⟩ := (persist_eq_ok_iff same).mp persisted
    exact ⟨taken, room, free, rfl⟩
  · intro allowed
    obtain ⟨taken, room, free, rfl⟩ := allowed
    have persisted := (@persist_eq_ok_iff _ _ forms _ _ _ (call.event n) same).mpr ⟨free, rfl⟩
    exact ⟨n, _, ⟨taken, room, rfl⟩, (), _, persisted, (), _, rfl, rfl, rfl⟩

end OneAppend

/-! ### Whole histories -/

/-- **The log after a history without a failure**: every appended event has its row, and the
counters stand where the present process has brought them. -/
structure Recorded (forms : Formats Json Time) (inputs : List (Input Json Time))
    (log : EventLog Json Time) : Prop where
  rows : log.db = some ⟨(numbered AppendCall.vaultId (appends inputs)).map fun entry =>
    rowOf forms (entry.1.event entry.2)⟩
  counters : ∀ id, (log.sequences id).getD 1 =
    (ofKey AppendCall.vaultId id (processes inputs).2).length + 1
  room : ∀ id, (ofKey AppendCall.vaultId id (appends inputs)).length < maxU64
  sound : log.poisoned = false

/-- The answers that a history ought to give. -/
def expected (inputs : List (Input Json Time)) :
    List (AppendCall Json Time × Except AppendFailure Nat) :=
  (numbered AppendCall.vaultId (appends inputs)).map fun entry => (entry.1, .ok entry.2)

section Histories

variable {forms : Formats Json Time} {inputs : List (Input Json Time)} {log : EventLog Json Time}
  {call : AppendCall Json Time}

section

variable (recorded : Recorded forms inputs log)
include recorded

theorem Recorded.answer_iff :
    (append forms call.now call.vaultId call.eventType call.data).result log =
        .ok ((ofKey AppendCall.vaultId call.vaultId (appends inputs)).length + 1) ↔
      (∀ old ∈ (processes inputs).1, old.vaultId ≠ call.vaultId) ∧
        (ofKey AppendCall.vaultId call.vaultId (appends inputs)).length + 1 < maxU64 := by
  have parts : (ofKey AppendCall.vaultId call.vaultId (appends inputs)).length =
      (ofKey AppendCall.vaultId call.vaultId (processes inputs).1).length +
        (ofKey AppendCall.vaultId call.vaultId (processes inputs).2).length := by
    rw [appends_eq_processes, ofKey_append, length_append]
  have none : (∀ old ∈ (processes inputs).1, old.vaultId ≠ call.vaultId) ↔
      (ofKey AppendCall.vaultId call.vaultId (processes inputs).1).length = 0 := by
    rw [length_eq_zero_iff, ofKey_eq_nil_iff]
  have counter := recorded.counters call.vaultId
  rw [result_eq_ok_iff, none]
  simp only [append_eq_ok_iff recorded.sound recorded.rows]
  constructor
  · intro ran
    obtain ⟨_, number, room, -, -⟩ := ran
    omega
  · intro ready
    refine ⟨_, by omega, ready.2, ?_, rfl⟩
    intro row member same taken
    obtain ⟨entry, listed, rfl⟩ := mem_map.mp member
    have used := exists_numbered_iff.mp ⟨entry, listed, same, rfl⟩
    have number : entry.2 = _ := (asI64_inj (by omega) (by omega)).mp taken
    omega

theorem Recorded.appended
    (answer : (append forms call.now call.vaultId call.eventType call.data).result log = .ok
      ((ofKey AppendCall.vaultId call.vaultId (appends inputs)).length + 1)) :
    Recorded forms (inputs ++ [.append call])
      ((append forms call.now call.vaultId call.eventType call.data).after log) := by
  have continues := recorded.answer_iff.mp answer
  obtain ⟨t, ran⟩ := result_eq_ok_iff.mp answer
  obtain ⟨number, -, -, left⟩ := (append_eq_ok_iff recorded.sound recorded.rows).mp ran
  rw [after_of_ok ran, left]
  have counter := recorded.counters call.vaultId
  refine ⟨?_, fun id => ?_, fun id => ?_, recorded.sound⟩
  · rw [appends_append, numbered_concat, map_append]
    rfl
  · rw [processes_append]
    show (update log.sequences call.vaultId _ id).getD 1 =
      (ofKey AppendCall.vaultId id ((processes inputs).2 ++ [call])).length + 1
    by_cases same : call.vaultId = id
    · subst same
      rw [update_self, ofKey_concat_self, length_append, length_singleton, Option.getD_some]
      omega
    · rw [update_of_ne (Ne.symm same), ofKey_concat_other same]
      exact recorded.counters id
  · rw [appends_append]
    by_cases same : call.vaultId = id
    · subst same
      rw [ofKey_concat_self, length_append, length_singleton]
      exact continues.2
    · rw [ofKey_concat_other same]
      exact recorded.room id

theorem Recorded.restarted : Recorded forms (inputs ++ [.restart]) log.restarted := by
  have opened : log.restarted = .withDb ⟨(numbered AppendCall.vaultId (appends inputs)).map
      fun entry => rowOf forms (entry.1.event entry.2)⟩ := by
    rw [EventLog.restarted, recorded.rows]
  rw [opened]
  refine ⟨?_, fun id => ?_, fun id => ?_, rfl⟩
  · rw [appends_restart]
    rfl
  · rw [processes_restart]
    rfl
  · rw [appends_restart]
    exact recorded.room id

end

theorem history_concat (input : Input Json Time) :
    history forms (inputs ++ [input]) = (history forms inputs).next forms input := by
  rw [history, foldl_append]
  rfl

theorem answers_eq_expected_iff (forms : Formats Json Time) (inputs : List (Input Json Time)) :
    ((history forms inputs).answers = expected inputs ↔
        ∀ before input after, inputs = before ++ input :: after → ∀ call, input = .append call →
          (∀ old ∈ (processes before).1, old.vaultId ≠ call.vaultId) ∧
            (ofKey AppendCall.vaultId call.vaultId (appends before)).length + 1 < maxU64) ∧
      ((history forms inputs).answers = expected inputs →
        Recorded forms inputs (history forms inputs).log) := by
  induction inputs using List.reverseRecOn with
  | nil =>
    refine ⟨by simp [history, expected, appends, numbered], fun _ => ?_⟩
    exact ⟨rfl, fun _ => rfl, fun _ => (by decide : 0 < maxU64), rfl⟩
  | append_singleton inputs input ih =>
    obtain ⟨same, recorded⟩ := ih
    have split := forall_split_concat (fun before input => ∀ call, input = Input.append call →
      (∀ old ∈ (processes before).1, old.vaultId ≠ call.vaultId) ∧
        (ofKey AppendCall.vaultId call.vaultId (appends before)).length + 1 < maxU64) inputs input
    rw [split, ← same, history_concat]
    cases input with
    | restart =>
      have kept : expected (inputs ++ [.restart]) = expected inputs := by
        rw [expected, appends_restart]
        rfl
      rw [kept]
      refine ⟨?_, fun before => (recorded before).restarted⟩
      simp [Session.next]
    | append call =>
      have more : expected (inputs ++ [.append call]) = expected inputs ++
          [(call, .ok ((ofKey AppendCall.vaultId call.vaultId (appends inputs)).length + 1))] := by
        rw [expected, appends_append, numbered_concat, map_append]
        rfl
      rw [more, Session.next]
      constructor
      · constructor
        · intro whole
          obtain ⟨before, last⟩ := append_inj' whole rfl
          refine ⟨before, fun other equal => ?_⟩
          obtain rfl := Input.append.inj equal
          exact (recorded before).answer_iff.mp (Prod.mk.inj (singleton_inj.mp last)).2
        · intro ready
          have answer := (recorded ready.1).answer_iff.mpr (ready.2 call rfl)
          rw [ready.1, answer]
      · intro whole
        obtain ⟨before, last⟩ := append_inj' whole rfl
        exact (recorded before).appended (Prod.mk.inj (singleton_inj.mp last)).2

theorem answers_calls (forms : Formats Json Time) (inputs : List (Input Json Time)) :
    (history forms inputs).answers.map Prod.fst = appends inputs := by
  induction inputs using List.reverseRecOn with
  | nil => rfl
  | append_singleton inputs input ih =>
    rw [history_concat]
    cases input with
    | append call =>
      rw [appends_append, ← ih, Session.next, map_append]
      rfl
    | restart =>
      rw [appends_restart, ← ih]
      rfl

/-! ### Reading the table -/

theorem readRow_eq_ok_iff {id : String} {row : EventRow} {out : StoredEvent Json Time} :
    readRow forms id row = .ok out ↔ forms.rfc3339.parse row.timestamp = .ok out.timestamp ∧
        forms.json.parse row.data = .ok out.data ∧
        parseEventType row.eventType = .ok out.eventType ∧ out.vaultId = id ∧
        out.sequence = asU64 row.sequence ∧ out.schemaVersion = asU32 row.schemaVersion := by
  obtain ⟨outVault, outSequence, outType, outTime, outData, outVersion⟩ := out
  unfold readRow
  cases forms.rfc3339.parse row.timestamp with
  | error e => simp [Except.mapError, bind, Except.bind]
  | ok timestamp =>
    cases forms.json.parse row.data with
    | error e => simp [Except.mapError, bind, Except.bind]
    | ok data =>
      cases parseEventType row.eventType with
      | error e => simp [Except.mapError, bind, Except.bind]
      | ok eventType =>
        simp only [Except.mapError, bind, Except.bind, pure, Except.pure, Except.ok.injEq,
          StoredEvent.mk.injEq]
        tauto

theorem readRow_rowOf_iff {n : Nat} (fits : n ≤ maxU64) :
    readRow forms call.vaultId (rowOf forms (call.event n)) = .ok (call.event n) ↔
      forms.json.parse (forms.json.write call.data) = .ok call.data ∧
        forms.rfc3339.parse (forms.rfc3339.write call.now) = .ok call.now := by
  rw [readRow_eq_ok_iff]
  have number : asU64 (asI64 n) = n := asU64_asI64 fits
  simp [rowOf, AppendCall.event, StoredEvent.new, number, currentSchemaVersion, asU32, and_comm]

variable (recorded : Recorded forms inputs log)
include recorded

theorem Recorded.rows_perm (id : String) :
    ∃ db, log.db = some db ∧ (db.getEventsForVault id).Perm
      ((((ofKey AppendCall.vaultId id (appends inputs)).zipIdx 1).map fun entry =>
        entry.1.event entry.2).map (rowOf forms)) := by
  refine ⟨_, recorded.rows, (perm_insertionSort _ _).trans (.of_eq ?_)⟩
  rw [filter_map, map_map, ← numbered_ofKey id]
  rfl

theorem Recorded.eventsForVault_iff (id : String) :
    log.eventsForVault forms id =
        .ok (((ofKey AppendCall.vaultId id (appends inputs)).zipIdx 1).map fun entry =>
          entry.1.event entry.2) ↔
      ∀ call ∈ ofKey AppendCall.vaultId id (appends inputs),
        forms.json.parse (forms.json.write call.data) = .ok call.data ∧
          forms.rfc3339.parse (forms.rfc3339.write call.now) = .ok call.now := by
  obtain ⟨db, stored, rows⟩ := recorded.rows_perm id
  have room := recorded.room id
  have views : log.eventsForVault forms id =
      ((db.getEventsForVault id).mapM (readRow forms id)).map sortBySequence := by
    simp only [EventLog.eventsForVault, stored]
    cases (db.getEventsForVault id).mapM (readRow forms id) <;> rfl
  -- the numbers are 1, 2, 3, …, so they increase and stay in range
  have numbers : (((ofKey AppendCall.vaultId id (appends inputs)).zipIdx 1).map fun entry =>
      entry.1.event entry.2).map StoredEvent.sequence =
        List.range' 1 (ofKey AppendCall.vaultId id (appends inputs)).length := by
    rw [← zipIdx_map_snd 1 (ofKey AppendCall.vaultId id (appends inputs)), map_map]
    rfl
  have increasing : (((ofKey AppendCall.vaultId id (appends inputs)).zipIdx 1).map fun entry =>
      entry.1.event entry.2).Pairwise fun a b => a.sequence < b.sequence := by
    rw [← pairwise_map, numbers]
    exact pairwise_lt_range'
  have fits : ∀ entry ∈ (ofKey AppendCall.vaultId id (appends inputs)).zipIdx 1,
      entry.2 ≤ maxU64 := by
    intro entry member
    have := snd_lt_of_mem_zipIdx member
    omega
  rw [views]
  refine (readBack_iff increasing rows ?_).trans ?_
  · intro item member out read
    obtain ⟨entry, listed, rfl⟩ := mem_map.mp member
    rw [(readRow_eq_ok_iff.mp read).2.2.2.2.1]
    exact asU64_asI64 (fits entry listed)
  · have calls := zipIdx_map_fst 1 (ofKey AppendCall.vaultId id (appends inputs))
    rw [← calls, forall_mem_map, forall_mem_map, calls]
    refine forall_congr' fun entry => forall_congr' fun listed => ?_
    have member : entry.1 ∈ ofKey AppendCall.vaultId id (appends inputs) :=
      fst_mem_of_mem_zipIdx listed
    have same : entry.1.vaultId = id := of_decide_eq_true (mem_filter.mp member).2
    rw [← same]
    exact readRow_rowOf_iff (fits entry listed)

end Histories

/-- **The durable log keeps counting over a history exactly if every append continues the counting
of its vault in one process**, with room in the counter and with texts that are read back. -/
theorem keepsCounting_iff (forms : Formats Json Time) (inputs : List (Input Json Time)) :
    KeepsCounting forms inputs ↔ ∀ before call after, inputs = before ++ .append call :: after →
      Continues forms before call := by
  have answers := answers_eq_expected_iff forms inputs
  have numbers := eq_numbered_iff AppendCall.vaultId (Except.ok (ε := AppendFailure))
    (answers_calls forms inputs)
  constructor
  · intro counts before call after whole
    have right := numbers.mpr counts.numbers
    have recorded := answers.2 right
    obtain ⟨same, room⟩ := answers.1.mp right before _ after whole call rfl
    have listed : call ∈ ofKey AppendCall.vaultId call.vaultId (appends inputs) := by
      rw [whole]
      simp [ofKey, appends, Input.call?]
    obtain ⟨payload, time⟩ :=
      (recorded.eventsForVault_iff call.vaultId).mp (counts.events call.vaultId) call listed
    exact ⟨(forall_earlier_iff before).mp same, room, payload, time⟩
  · intro continues
    have right : (history forms inputs).answers = expected inputs := by
      refine answers.1.mpr fun before input after whole call append => ?_
      subst append
      have here := continues before call after whole
      exact ⟨(forall_earlier_iff before).mpr here.sameProcess, here.room⟩
    refine ⟨numbers.mp right, fun vaultId => ((answers.2 right).eventsForVault_iff vaultId).mpr ?_⟩
    intro call member
    have listed : call ∈ appends inputs := (mem_filter.mp member).1
    obtain ⟨input, inside, same⟩ := mem_filterMap.mp listed
    obtain ⟨before, after, whole⟩ := append_of_mem inside
    cases input with
    | restart => cases same
    | append other =>
      obtain rfl := Option.some.inj same
      have here := continues before other after whole
      exact ⟨here.payload, here.time⟩

def plainForms : Formats String String := ⟨⟨id, .ok⟩, ⟨id, .ok⟩⟩

def depositTo (id : String) : Input String String :=
  .append ⟨id, .deposit, "100", "2024-01-01T00:00:00+00:00"⟩

theorem continues_plainForms {before : List (Input String String)} {call : AppendCall String String}
    (same : ∀ old ∈ (processes before).1, old.vaultId ≠ call.vaultId)
    (room : (ofKey AppendCall.vaultId call.vaultId (appends before)).length + 1 < maxU64) :
    Continues plainForms before call :=
  ⟨(forall_earlier_iff before).mp same, room, rfl, rfl⟩

/-- The log counts on over a restart after which another vault gets an event. -/
theorem keepsCounting_otherVault : KeepsCounting plainForms
    [depositTo "vault-1", depositTo "vault-1", .restart, depositTo "vault-2"] := by
  refine (keepsCounting_iff _ _).mpr fun before call after whole => ?_
  rcases before with _ | ⟨first, _ | ⟨second, _ | ⟨third, _ | ⟨fourth, rest⟩⟩⟩⟩
  · obtain ⟨same, -⟩ := cons_eq_cons.mp whole
    obtain rfl := Input.append.inj same
    exact continues_plainForms (by decide) (by decide)
  · simp only [cons_append, nil_append, List.cons.injEq] at whole
    obtain ⟨rfl, same, -⟩ := whole
    obtain rfl := Input.append.inj same
    exact continues_plainForms (by decide) (by decide)
  · simp at whole
  · simp only [cons_append, nil_append, List.cons.injEq] at whole
    obtain ⟨rfl, rfl, rfl, same, -⟩ := whole
    obtain rfl := Input.append.inj same
    exact continues_plainForms (by decide) (by decide)
  · simp at whole

/-- **After a restart the next append to a vault fails.** -/
theorem restarted_not_counting :
    (history plainForms [depositTo "vault-1", .restart, depositTo "vault-1"]).answers.map Prod.snd =
        [.ok 1, .error (.error (.databaseError
          "UNIQUE constraint failed: events.vault_id, events.sequence"))] ∧
      ¬ KeepsCounting plainForms [depositTo "vault-1", .restart, depositTo "vault-1"] := by
  refine ⟨by decide, fun counts => ?_⟩
  have numbers := counts.numbers "vault-1"
  revert numbers
  decide

end EthosContracts.Backend.EventSourcing
