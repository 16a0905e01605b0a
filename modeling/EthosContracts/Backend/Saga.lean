/-
**Sagas** (`saga.rs`).

The steps of a saga run in order. When one of them fails for good, the compensations of the
completed ones are invoked in reverse. The registry remembers by name which compensations have
succeeded, and invokes none of them again, for no step of the name and in no later call.

What the actions answer is up to a world `W`, which they read and change.
-/

import Mathlib.Data.List.Forall2

namespace EthosContracts.Backend

open List

variable {W Value : Type} [Inhabited Value]

/-- A step with its action on the world `W`. -/
structure SagaStep (W Value : Type) where
  name : String
  forward : W → Except String Value × W
  maxRetries : Nat

structure Saga (W Value : Type) where
  steps : List (SagaStep W Value)
  compensations : String → Option (Value → W → Except String Unit × W)

inductive SagaStepStatus
  | completed
  | failed
  | compensated
  | compensationFailed
  | notStarted
deriving DecidableEq

inductive SagaStatus
  | completed
  | compensated
  | compensationFailed
deriving DecidableEq

structure SagaStepRecord (Value : Type) where
  name : String
  status : SagaStepStatus := .notStarted
  attempts : Nat := 0
  output : Option Value := none
  error : Option String := none
  compensationAlreadyRan : Bool := false

structure SagaExecution (Value : Type) where
  status : SagaStatus
  steps : List (SagaStepRecord Value)

/-- What `compensate` does about a step. -/
inductive CompensationOutcome
  | notRegistered
  | ran (result : Except String Unit)
  | alreadyCompensated

/-- A compensation that was run. -/
structure Invocation (Value : Type) where
  name : String
  output : Value
  result : Except String Unit

/-- The world, the registry's names, and the compensations of the call, the last one first. -/
structure Recovery (W Value : Type) where
  world : W
  executed : List String
  invoked : List (Invocation Value) := []

namespace Saga

/-- The attempts at a step, with the retries that are left. -/
def attempt (forward : W → Except String Value × W) (retries attempts : Nat) (world : W) :
    Except String Value × Nat × W :=
  match forward world, retries with
  | (.ok output, after), _ => (.ok output, attempts + 1, after)
  | (.error err, after), 0 => (.error err, attempts + 1, after)
  | (.error _, after), retries + 1 => attempt forward retries (attempts + 1) after

/-- The first loop of `execute`; the steps after a failed one are not started. -/
def runForward : List (SagaStep W Value) → W → List (SagaStepRecord Value) × W
  | [], world => ([], world)
  | step :: rest, world =>
    match attempt step.forward step.maxRetries 0 world with
    | (.ok output, attempts, after) =>
      let later := runForward rest after
      (⟨step.name, .completed, attempts, some output, none, false⟩ :: later.1, later.2)
    | (.error err, attempts, after) =>
      (⟨step.name, .failed, attempts, none, some err, false⟩ ::
        rest.map fun step => { name := step.name }, after)

variable (saga : Saga W Value) (record : SagaStepRecord Value) (s : Recovery W Value)

def run (stepName : String) (output : Value) : CompensationOutcome × Recovery W Value :=
  if stepName ∈ s.executed then (.alreadyCompensated, s)
  else match saga.compensations stepName with
    | none => (.notRegistered, s)
    | some f =>
      let answer := f output s.world
      (.ran answer.1, ⟨answer.2, if answer.1.isOk then stepName :: s.executed else s.executed,
        ⟨stepName, output, answer.1⟩ :: s.invoked⟩)

def compensate : SagaStepRecord Value × Recovery W Value :=
  if record.status ≠ .completed then (record, s)
  else
    let outcome := saga.run s record.name (record.output.getD default)
    (match outcome.1 with
      | .ran (.ok _) => { record with status := .compensated }
      | .alreadyCompensated =>
        { record with status := .compensated, compensationAlreadyRan := true }
      | .ran (.error err) => { record with status := .compensationFailed, error := some err }
      | .notRegistered => record, outcome.2)

/-- The second loop; the last record has its turn first. -/
def compensateAll : List (SagaStepRecord Value) → List (SagaStepRecord Value) × Recovery W Value
  | [] => ([], s)
  | record :: rest =>
    let later := compensateAll rest
    let turn := saga.compensate record later.2
    (turn.1 :: later.1, turn.2)

def execute (executed : List String) (world : W) : SagaExecution Value × Recovery W Value :=
  let forward := runForward saga.steps world
  if forward.1.any (·.status = .failed) then
    let back := saga.compensateAll ⟨forward.2, executed, []⟩ forward.1
    (⟨if back.1.any (·.status = .compensationFailed) then .compensationFailed else .compensated,
      back.1⟩, back.2)
  else (⟨.completed, forward.1⟩, ⟨forward.2, executed, []⟩)

/-- Among the invocations is one for the step name that succeeded. -/
def Succeeded (stepName : String) (invoked : List (Invocation Value)) : Prop :=
  ∃ invocation ∈ invoked, invocation.name = stepName ∧ invocation.result.isOk

/-- The step has succeeded and has a compensation. -/
def Undoable : Prop := record.output.isSome ∧ (saga.compensations record.name).isSome

instance : DecidablePred saga.Undoable := fun _ => inferInstanceAs (Decidable (_ ∧ _))

/-- The invocation is one for the step, which is reported as compensated only if it succeeded. -/
def Undoes (invocation : Invocation Value) : Prop :=
  invocation.name = record.name ∧ record.output = some invocation.output ∧
    (record.status = .compensated → invocation.result.isOk)

/-- **Steps undone once for each name.** The last step has its turn first: its compensation is
invoked with its output, unless one of that name has succeeded `before` or for a later step. -/
inductive UndoneByName (before : String → Prop) :
    List (SagaStepRecord Value) → List (Invocation Value) → Prop
  | nil : UndoneByName before [] []
  | skipped {record records invoked} (nothing : ¬ saga.Undoable record)
      (reported : record.status ≠ .compensated) (rest : UndoneByName before records invoked) :
      UndoneByName before (record :: records) invoked
  | undone {record records invocation invoked} (undoable : saga.Undoable record)
      (new : ¬ before record.name ∧ ¬ Succeeded record.name invoked)
      (undoes : Undoes record invocation) (rest : UndoneByName before records invoked) :
      UndoneByName before (record :: records) (invocation :: invoked)
  | guarded {record records invoked} (completed : record.output.isSome)
      (old : before record.name ∨ Succeeded record.name invoked)
      (reported : record.status = .compensated ∧ record.compensationAlreadyRan = true)
      (rest : UndoneByName before records invoked) : UndoneByName before (record :: records) invoked

/-- A record as the first loop leaves it. -/
structure Started : Prop where
  completed_iff : record.status = .completed ↔ record.output.isSome
  uncompensated : record.status ≠ .compensated

/-- The registry has the names of `before` and of the invocations that succeeded. -/
def Remembers (before : String → Prop) : Prop :=
  ∀ stepName, stepName ∈ s.executed ↔ before stepName ∨ Succeeded stepName s.invoked

variable {saga record s} {records : List (SagaStepRecord Value)} {before : String → Prop}

omit [Inhabited Value] in
theorem succeeded_cons_iff {stepName : String} {invocation : Invocation Value}
    {invoked : List (Invocation Value)} : Succeeded stepName (invocation :: invoked) ↔
      invocation.name = stepName ∧ invocation.result.isOk ∨ Succeeded stepName invoked :=
  exists_mem_cons_iff ..

/-- The turn of one record. -/
theorem UndoneByName.compensate (remembers : Remembers s before) (started : Started record)
    (undone : saga.UndoneByName before records s.invoked) :
    Remembers (saga.compensate record s).2 before ∧ saga.UndoneByName before
      ((saga.compensate record s).1 :: records) (saga.compensate record s).2.invoked := by
  unfold Saga.compensate
  split_ifs with skipped
  · exact ⟨remembers, .skipped (fun done => skipped (started.completed_iff.mpr done.1))
      started.uncompensated undone⟩
  have completed := started.completed_iff.mp (not_not.mp skipped)
  obtain ⟨output, produced⟩ := Option.isSome_iff_exists.mp completed
  unfold Saga.run
  split_ifs with remembered
  · exact ⟨remembers, .guarded completed ((remembers _).mp remembered) ⟨rfl, rfl⟩ undone⟩
  have new := not_or.mp (mt (remembers record.name).mpr remembered)
  cases found : saga.compensations record.name with
  | none => exact ⟨remembers, .skipped (by simp [Undoable, found]) started.uncompensated undone⟩
  | some f =>
    simp only [produced, Option.getD_some]
    rcases f output s.world with ⟨err | _, after⟩
    · refine ⟨fun stepName => ?_, .undone ⟨rfl, by simp [found]⟩ new ⟨rfl, rfl, by simp⟩ undone⟩
      simpa [succeeded_cons_iff, Except.isOk, Except.toBool] using remembers stepName
    · refine ⟨fun stepName => ?_, .undone ⟨rfl, by simp [found]⟩ new ⟨rfl, rfl, fun _ => rfl⟩ undone⟩
      simp [succeeded_cons_iff, Except.isOk, Except.toBool, remembers stepName, eq_comm,
        or_left_comm]

end Saga

end EthosContracts.Backend
