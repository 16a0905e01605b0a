/-
**Escrow: what it holds, and what a release leaves.**

`escrow_sbt` records an escrow agent and conditions for a token. The calls that change an owner
do not read the record, and a release marks it but does not remove it.
-/

import EthosContracts.Sbt.Recovery

namespace EthosContracts.Sbt

open Lib Soroban List
open TtlVault (Address Bytes Hash)

/-- A token was placed in escrow, and not released since. -/
def InEscrow (sbtId : Nat) (history : List SbtEvent) : Prop :=
  ∃ before place since, history = before ++ place :: since ∧
    place.input.call.escrows = some sbtId ∧
    ∀ event ∈ since, sbtId ∉ event.input.call.releases

/-- A token was released from escrow, and not placed there since. -/
def Released (sbtId : Nat) (history : List SbtEvent) : Prop :=
  ∃ before release since, history = before ++ release :: since ∧ InEscrow sbtId before ∧
    sbtId ∈ release.input.call.releases ∧
    ∀ event ∈ since, event.input.call.escrows ≠ some sbtId

/-- **Escrow holds the token**: no call changes the owner of a token in escrow, and the owner of a
released one can place it again. -/
structure EscrowHolds (history : List SbtEvent) (s : SbtState) : Prop where
  held : ∀ earlier event later, history = earlier ++ event :: later → ∀ sbtId,
    InEscrow sbtId earlier → event.after.owner sbtId = event.before.owner sbtId
  again : ∀ sbtId, Released sbtId history → ∀ owner, s.owner sbtId = some owner →
    ∀ (env : SbtEnv) (escrowAgent : Address) (conditions : Bytes),
      owner ≠ env.self → owner ∈ env.signers →
      (escrowSbt env sbtId escrowAgent conditions).succeeds s fun _ _ => True

/-- Whom a transfer or a recovery makes the owner of a token. -/
def SbtCall.moves (functions : Functions) (s : SbtState) (sbtId : Nat) : SbtCall → Option Address
  | .mint _ _ => none
  | call => call.destination functions s sbtId

/-- A token in escrow is moved to its owner at most, and is not released. -/
def Untouched (functions : Functions) (history : List SbtEvent) : Prop :=
  ∀ earlier event later, history = earlier ++ event :: later → ∀ sbtId, InEscrow sbtId earlier →
    (∀ receiver, event.input.call.moves functions event.before sbtId = some receiver →
      event.before.owner sbtId = some receiver) ∧
    sbtId ∉ event.input.call.releases

section Steps

variable {functions : Functions} {history : List SbtEvent} {input : SbtInput} {start s t : SbtState}

variable {sbtId : Nat}

theorem escrowSbt_refused {env : SbtEnv} {escrowAgent : Address} {conditions : Bytes}
    (recorded : (s.escrow sbtId).isSome) :
    ¬ (escrowSbt env sbtId escrowAgent conditions).succeeds s fun _ _ => True := by
  rintro ⟨escrowId, t, ran, -⟩
  have stepped : SbtStep plainFunctions ⟨env, .escrowSbt sbtId escrowAgent conditions⟩ s t :=
    Iff.mp (wp_discard _ _) (escrowSbt_step sbtId escrowAgent conditions) escrowId t ran
  rw [(stepped.placed sbtId rfl).2.1] at recorded
  cases recorded

theorem SbtStep.owner_moved (stepped : SbtStep functions input s t)
    (counted : Counted s) (owned : (s.owner sbtId).isSome) :
    t.owner sbtId = (input.call.moves functions s sbtId).or (s.owner sbtId) := by
  rw [stepped.owners sbtId]
  generalize input.call = call
  cases call with
  | mint =>
    rw [SbtCall.destination, if_neg (counted sbtId owned).2.ne]
    rfl
  | _ => rfl

theorem SbtStep.owned (stepped : SbtStep functions input s t)
    (owned : (s.owner sbtId).isSome) : (t.owner sbtId).isSome := by
  rw [stepped.owners sbtId, Option.isSome_or, owned, Bool.or_true]

theorem run_keeps (run : Run (Executes (execSbt functions)) start history s)
    (owned : (start.owner sbtId).isSome) (recorded : (start.escrow sbtId).isSome) :
    (s.owner sbtId).isSome ∧ (s.escrow sbtId).isSome :=
  run.invariant (fun t => (t.owner sbtId).isSome ∧ (t.escrow sbtId).isSome) (fun _ _ => True)
    ⟨owned, recorded⟩
    (fun _ _ _ present _ ran => ⟨(execSbt_step () _ ran).owned present.1,
      (execSbt_step () _ ran).kept sbtId present.2⟩)
    (fun _ _ => trivial)

theorem InEscrow.present (placed : InEscrow sbtId history) (run : SbtRun functions history s) :
    (s.owner sbtId).isSome ∧ (s.escrow sbtId).isSome := by
  obtain ⟨before, place, since, whole, call, -⟩ := placed
  obtain ⟨-, stepped, rest⟩ := run_at run whole
  obtain ⟨owned, -, recorded⟩ := stepped.placed sbtId call
  exact run_keeps rest (stepped.owned owned) recorded

theorem not_placed (run : Run (Executes (execSbt functions)) start history s)
    (owned : (start.owner sbtId).isSome) (recorded : (start.escrow sbtId).isSome) :
    ∀ event ∈ history, event.input.call.escrows ≠ some sbtId := by
  intro event member call
  obtain ⟨front, later, whole⟩ := append_of_mem member
  obtain ⟨before, stepped, -⟩ := run_at run whole
  have present := (run_keeps before owned recorded).2
  rw [(stepped.placed sbtId call).2.1] at present
  cases present

end Steps

section Holds

variable {functions : Functions} {history : List SbtEvent} {s : SbtState}

theorem released_of_release {earlier later : List SbtEvent} {event : SbtEvent} {sbtId : Nat}
    (run : SbtRun functions history s) (whole : history = earlier ++ event :: later)
    (placed : InEscrow sbtId earlier) (release : sbtId ∈ event.input.call.releases) :
    Released sbtId history := by
  obtain ⟨first, stepped, rest⟩ := run_at run whole
  obtain ⟨owned, recorded⟩ := placed.present first
  exact ⟨earlier, event, later, whole, placed, release,
    not_placed rest (stepped.owned owned) (stepped.kept sbtId recorded)⟩

theorem Released.refused {sbtId : Nat} (released : Released sbtId history)
    (run : SbtRun functions history s) :
    ∃ owner, s.owner sbtId = some owner ∧
      ∀ (env : SbtEnv) (escrowAgent : Address) (conditions : Bytes),
        ¬ (escrowSbt env sbtId escrowAgent conditions).succeeds s fun _ _ => True := by
  obtain ⟨before, release, since, whole, placed, -, -⟩ := released
  obtain ⟨first, stepped, rest⟩ := run_at run whole
  obtain ⟨owned, recorded⟩ := placed.present first
  obtain ⟨still, present⟩ := run_keeps rest (stepped.owned owned) (stepped.kept sbtId recorded)
  obtain ⟨owner, held⟩ := Option.isSome_iff_exists.mp still
  exact ⟨owner, held, fun env escrowAgent conditions => escrowSbt_refused present⟩

/-- **When escrow holds the token.** In every run: exactly if a token in escrow is moved to its
owner at most, and is not released. -/
theorem escrowHolds_iff (run : SbtRun functions history s) :
    EscrowHolds history s ↔ Untouched functions history := by
  constructor
  · intro holds earlier event later whole sbtId placed
    obtain ⟨first, stepped, -⟩ := run_at run whole
    constructor
    · intro receiver moved
      rw [← holds.held earlier event later whole sbtId placed,
        stepped.owner_moved (run_counted first) (placed.present first).1, moved]
      rfl
    · intro release
      have released := released_of_release run whole placed release
      obtain ⟨owner, held, refused⟩ := released.refused run
      have other : owner ≠ ⟨owner.toNat + 1⟩ := fun same =>
        absurd (congrArg Address.toNat same) (Nat.succ_ne_self _).symm
      exact refused ⟨⟨⟨owner.toNat + 1⟩, 0, [owner]⟩, fun _ _ => none⟩ owner []
        (holds.again sbtId released owner held _ owner [] other (mem_singleton.mpr rfl))
  · intro untouched
    refine ⟨fun earlier event later whole sbtId placed => ?_, fun sbtId released => ?_⟩
    · obtain ⟨first, stepped, -⟩ := run_at run whole
      rw [stepped.owner_moved (run_counted first) (placed.present first).1]
      cases moved : event.input.call.moves functions event.before sbtId with
      | none => rfl
      | some receiver =>
        rw [(untouched earlier event later whole sbtId placed).1 receiver moved]
        rfl
    · obtain ⟨before, release, since, whole, placed, call, -⟩ := released
      exact absurd call (untouched before release since whole sbtId placed).2

end Holds

/-! ### Two runs -/

def delegatedInEscrow : List SbtInput :=
  signedCalls [(⟨2⟩, .initializeContract ⟨2⟩), (⟨2⟩, .mint ⟨3⟩ [7]), (⟨3⟩, .escrowSbt 0 ⟨5⟩ [8]),
    (⟨3⟩, .delegateSbtTemporarily 0 ⟨6⟩ 60)]

theorem escrowHolds_delegatedInEscrow :
    (play (execSbt plainFunctions) {} delegatedInEscrow).1.length = 4 ∧
      EscrowHolds (play (execSbt plainFunctions) {} delegatedInEscrow).1
        (play (execSbt plainFunctions) {} delegatedInEscrow).2 := by
  refine ⟨by decide +kernel, (escrowHolds_iff (play_executes _ _ _)).mpr ?_⟩
  intro earlier event later whole sbtId _
  have member : event ∈ (play (execSbt plainFunctions) {} delegatedInEscrow).1 := by simp [whole]
  have input := play_inputs _ _ _ event member
  simp only [delegatedInEscrow, signedCalls, mapIdx_cons, mapIdx_nil, mem_cons,
    not_mem_nil, or_false] at input
  rcases input with call | call | call | call <;> rw [call] <;>
    exact ⟨fun receiver moved => (Option.some_ne_none _ moved.symm).elim, not_mem_nil⟩

def minted : List SbtInput :=
  signedCalls [(⟨2⟩, .initializeContract ⟨2⟩), (⟨2⟩, .mint ⟨3⟩ [7])]

def signedCall (signer : Address) (call : SbtCall) : SbtInput :=
  ⟨⟨⟨⟨0⟩, 10, [signer]⟩, fun _ _ => none⟩, call⟩

def placeInput : SbtInput := signedCall ⟨3⟩ (.escrowSbt 0 ⟨5⟩ [8])

def moveInput : SbtInput :=
  signedCall ⟨3⟩ (.batchTransferSbtConditional [0] [⟨⟨4⟩, .always⟩])

def releaseInput : SbtInput := signedCall ⟨5⟩ (.releaseSbtFromEscrow 0 [9])

def movedInEscrow : List SbtInput := minted ++ [placeInput] ++ [moveInput] ++ [releaseInput]

def moveEvent : SbtEvent :=
  playNext (execSbt plainFunctions) {} (minted ++ [placeInput]) moveInput

/-- **Moved in escrow**: the token goes from `3` to `4` before the release, and after it `4` cannot
place the token. -/
theorem moved_in_escrow :
    SbtRun plainFunctions (play (execSbt plainFunctions) {} movedInEscrow).1
        (play (execSbt plainFunctions) {} movedInEscrow).2 ∧
      moveEvent.before.owner 0 = some ⟨3⟩ ∧ moveEvent.after.owner 0 = some ⟨4⟩ ∧
      (execSbt plainFunctions (signedCall ⟨4⟩ (.escrowSbt 0 ⟨5⟩ [8]))
        (play (execSbt plainFunctions) {} movedInEscrow).2).isOk = false ∧
      ¬ EscrowHolds (play (execSbt plainFunctions) {} movedInEscrow).1
        (play (execSbt plainFunctions) {} movedInEscrow).2 := by
  refine ⟨play_executes _ _ _, rfl, rfl, rfl, fun holds => ?_⟩
  have placed : InEscrow 0 (play (execSbt plainFunctions) {} (minted ++ [placeInput])).1 :=
    ⟨(play (execSbt plainFunctions) {} minted).1, _, [], rfl, rfl, forall_mem_nil _⟩
  cases holds.held _ moveEvent _ rfl 0 placed

end EthosContracts.Sbt
