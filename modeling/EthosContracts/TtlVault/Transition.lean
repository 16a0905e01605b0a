/-
**Every call has its outcome, and what follows for runs.**

* `State.Regular` (no vault beyond the counter, nothing staked) holds of the initial state, and
  every call keeps it (`step_regular`), so it holds along every run (`run_regular`).
-/

import EthosContracts.TtlVault.ControlRecords
import EthosContracts.TtlVault.OutcomeTime
import EthosContracts.TtlVault.OutcomeVesting

namespace EthosContracts.TtlVault

open Lib

/-! ### The outcome of a call -/

theorem execRecord_outcome (env : Env) (s : State) (call : RecordCall) :
    HasOutcome env s (.record call) := by
  rw [HasOutcome, exec_record]
  by_cases controls : call.controls = true
  · refine ((execRecord_frame env call s).and (execRecord_controlled env s call controls)).mono ?_
    rintro _ t ⟨⟨core, -, side⟩, controlled⟩
    exact ⟨fun _ => .of_core core, controlled, side⟩
  · refine (execRecord_frame env call s).mono ?_
    rintro _ t ⟨core, books, side⟩
    have unchanged : Unchanged s t :=
      .of_frame (congrArg Core.vaults core) (books (Bool.eq_false_of_not_eq_true controls))
    exact ⟨fun _ => .of_core core, .of_unchanged unchanged, side⟩

theorem exec_outcome (env : Env) (s : State) (call : Call) : HasOutcome env s call := by
  cases call with
  | admin call =>
    refine (execAdmin_frame env call s).mono ?_
    rintro _ _ ⟨config, compliance, rfl⟩
    exact ⟨fun _ => .of_frame rfl rfl rfl rfl, .of_unchanged (.of_frame rfl rfl), rfl⟩
  | record call => exact execRecord_outcome env s call
  | checkIn id caller passkeyHash nonce =>
    exact checkIn_outcome env s id caller List.mem_cons_self passkeyHash nonce
  | triggerRelease id =>
    exact triggerReleaseInternal_outcome env s id List.mem_cons_self .expiry
  | triggerReleaseManual id =>
    exact triggerReleaseInternal_outcome env s id List.mem_cons_self .manual
  | checkInWithGeo id caller passkeyHash =>
    exact checkIn_outcome env s id caller List.mem_cons_self passkeyHash 0
  | _ => simp

variable {s t : State} {input : Invocation}

theorem exec_effect (env : Env) (regular : s.Regular) (call : Call) :
    (exec env call).wp s fun _ t => Effect env call s t :=
  (exec_outcome env s call).mono fun _ _ outcome => outcome.effect regular

theorem exec_side {α : Type} {part : State → α} {about : Call → Bool} (book : SideBooks → Option α)
    (reads : ∀ s call, book (s.sideBooks call) = if about call then none else some (part s))
    (env : Env) (call : Call) (other : about call = false) : (exec env call).Keeps part := by
  intro s
  refine (exec_outcome env s call).mono fun _ t outcome => ?_
  have same := congrArg book outcome.side
  rw [reads, reads, if_neg (Bool.eq_false_iff.mp other), if_neg (Bool.eq_false_iff.mp other)] at same
  exact Option.some.inj same

theorem exec_claimBooks (env : Env) (call : Call) (other : call.vests = false) :
    (exec env call).Keeps State.claimBooks :=
  exec_side SideBooks.claims (fun _ _ => rfl) env call other

/-! ### Regular states -/

theorem Effect.counted_after {env : Env} {call : Call} (effect : Effect env call s t)
    (counted : s.Counted) : t.Counted := by
  intro id beyond
  have absent : s.vaults id = none := counted id (lt_of_le_of_lt effect.counted beyond)
  cases present : t.vaults id with
  | none => rfl
  | some w => exact absurd (effect.opened id w absent present).1 (not_le.mpr beyond)

variable {host : Host}

theorem step_effect (regular : s.Regular)
    (stepped : step host s input t) : Effect input.env input.call s t :=
  exec_effect input.env regular input.call () t stepped.2

theorem step_controlled (stepped : step host s input t) : Controlled input.env input.call s t :=
  (exec_outcome input.env s input.call () t stepped.2).controlled

theorem step_regular (regular : s.Regular) (stepped : step host s input t) : t.Regular := by
  have effect := step_effect regular stepped
  exact ⟨effect.counted_after regular.counted, effect.staking regular.unstaked⟩

theorem initialState_regular (xlmToken admin : Address) (ledger : Ledger Address Address) :
    (initialState xlmToken admin ledger).Regular where
  counted _ _ := rfl
  unstaked _ _ stored := by cases stored

section Runs

variable {start s : State} {history : History} (run : ContractRun host start history s)
  (regular : start.Regular)
include run regular

theorem run_regular : s.Regular :=
  run.invariant State.Regular (fun _ _ => True) regular
    (fun _ _ _ kept _ stepped => step_regular kept stepped) fun _ _ => trivial

theorem run_regular_before : ∀ event ∈ history, event.before.Regular :=
  run.invariant_before State.Regular (fun _ _ => True) regular
    (fun _ _ _ kept _ stepped => step_regular kept stepped) fun _ _ => trivial

theorem regular_invariant (I : State → Prop) (C : State → Invocation → Prop) (holds : I start)
    (kept : ∀ u input t, u.Regular → I u → C u input → step host u input t → I t)
    (allowed : ∀ event ∈ history, C event.before event.input) : I s := by
  refine And.right (run.invariant (fun u => u.Regular ∧ I u) C ⟨regular, holds⟩ ?_ allowed)
  intro u input t before condition stepped
  exact ⟨step_regular before.1 stepped, kept u input t before.1 before.2 condition stepped⟩

theorem run_effect :
    ∀ event ∈ history, Effect event.input.env event.input.call event.before event.after := by
  intro event member
  exact step_effect (run_regular_before run regular event member) (run.stepped event member)

end Runs

end EthosContracts.TtlVault
