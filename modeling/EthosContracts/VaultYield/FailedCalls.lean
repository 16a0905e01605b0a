/-
**What a failed yield operation leaves.**

`deposit`, `withdraw` and `claim_yield` harvest, check, let the protocol move the money and then
write the books. Some checks come after the money has moved: the sums of a deposit, and for a claim
the claimed total and the outstanding yield.
-/

import EthosContracts.VaultYield.Backing

namespace EthosContracts.VaultYield

open Lib Lib.Proc Function

inductive Operation
  | deposit
  | withdraw
  | claimYield
deriving DecidableEq

section Operations

variable {P : Type} (protocol : YieldProtocol P) (id amount now : Nat)

def Operation.exec : Operation → YieldProc P Unit
  | .deposit => VaultYield.deposit protocol id amount now
  | .withdraw => VaultYield.withdraw protocol id amount now
  | .claimYield => do
    let _ ← VaultYield.claimYield protocol id amount now
    pure ()

def Operation.moves : Operation → Proc YieldError P Unit
  | .deposit => protocol.deposit now amount
  | .withdraw | .claimYield => protocol.withdraw now amount

/-- The arithmetic of a settlement does not overflow. -/
structure Position.Settles (position : Position) (index : Nat) : Prop where
  later : position.indexSnapshot ≤ index
  scaled : position.principal * (index - position.indexSnapshot) ≤ maxU128
  accrued : position.share.credit indexScale index ≤ maxU128

def Covered (u : YieldManager P) : Operation → Prop
  | .deposit =>
    let position := (u.positions id).getD (.new u.index)
    position.Settles u.index ∧ position.principal + amount ≤ maxU128 ∧
      u.totalPrincipal + amount ≤ maxU128
  | .withdraw => ∀ position ∈ u.positions id, amount ≤ position.principal →
      position.Settles u.index → amount ≤ u.totalPrincipal
  | .claimYield => ∀ position ∈ u.positions id, position.Settles u.index →
      amount ≤ position.share.credit indexScale u.index →
      position.claimed + amount ≤ maxU128 ∧ amount ≤ u.outstanding

/-- **A failed operation has no effect** but its harvest, which left `u`. -/
def LeavesHarvest (operation : Operation) (m u : YieldManager P) : Prop :=
  (operation.exec protocol id amount now).failure m ≠ none →
    (operation.exec protocol id amount now).after m = u

/-- **How an operation fails after its harvest**: a check before the protocol's call fails, or the
protocol does, or a check after it. -/
inductive FailsTo (operation : Operation) (u : YieldManager P) : YieldManager P → Prop
  | refused (covered : Covered id amount u operation) : FailsTo operation u u
  | unmoved (none : ∀ p, operation.moves protocol amount now u.protocol ≠ .ok () p) :
      FailsTo operation u u
  | moved {p : P} (uncovered : ¬ Covered id amount u operation)
      (moved : operation.moves protocol amount now u.protocol = .ok () p) :
      FailsTo operation u { u with protocol := p }

variable {protocol id amount now} {m u : YieldManager P}

theorem settle_settles (position : Position) (index : Nat) {σ : Type} {s : σ} :
    (position.settle index).ends s
      (fun settled t => s = t ∧ position.Settles index ∧ settled = { position with
        accrued := position.share.credit indexScale index
        indexSnapshot := index })
      fun _ t => s = t ∧ ¬ position.Settles index := by
  simp only [Position.settle, Position.earnedSince, ends_bind, ends_ensure, ends_checked, ends_pure]
  exact ⟨fun later => ⟨fun scaled => ⟨fun accrued => ⟨trivial, ⟨later, scaled, accrued⟩, rfl⟩,
    fun large => ⟨trivial, fun settles => large settles.accrued⟩⟩,
    fun large => ⟨trivial, fun settles => large settles.scaled⟩⟩,
    fun earlier => ⟨trivial, fun settles => earlier settles.later⟩⟩

theorem atomic_ends {x : Proc YieldError P Unit} {p : P} (atomic : ∀ e q, x p = .error e q → q = p) :
    x.ends p (fun _ q => x p = .ok () q) fun _ q => p = q ∧ ∀ r, x p ≠ .ok () r :=
  ⟨fun _ _ ran => ran, fun e q failed => ⟨(atomic e q failed).symm, fun _ ran => by
    cases failed.symm.trans ran⟩⟩

variable (id) in
theorem exec_ends (operation : Operation) (pos : amount ≠ 0) {credit : Nat}
    (harvested : harvest protocol now m = .ok credit u)
    (atomic : ∀ e p, operation.moves protocol amount now u.protocol = .error e p → p = u.protocol) :
    (operation.exec protocol id amount now).ends m (fun _ _ => Covered id amount u operation)
      fun _ => FailsTo protocol id amount now operation u := by
  have call := atomic_ends atomic
  cases operation with
  | deposit =>
    simp only [Operation.exec, deposit, insertPosition, onProtocol, ends_bind, ends_ensure, pos,
      ends_of_ok harvested, ends_zoom, ne_eq, not_false_eq_true, true_implies, not_true, false_implies,
      and_true]
    refine call.mono (fun _ p moved => ?_) fun _ _ kept => kept.1 ▸ .unmoved kept.2
    simp only [ends_read, ends_checked, ends_write]
    refine (settle_settles _ u.index).mono ?_ ?_
    · rintro settled t ⟨rfl, settles, rfl⟩
      exact ⟨fun principal => ⟨fun total => ⟨settles, principal, total⟩, fun large =>
        .moved (fun covered => large covered.2.2) moved⟩,
        fun large => .moved (fun covered => large covered.2.1) moved⟩
    · rintro _ t ⟨rfl, unsettled⟩
      exact .moved (fun covered => unsettled covered.1) moved
  | withdraw =>
    simp only [Operation.exec, withdraw, insertPosition, onProtocol, ends_bind, ends_ensure, pos,
      ends_of_ok harvested, ends_zoom, ne_eq, not_false_eq_true, true_implies, not_true, false_implies,
      and_true, ends_read, ends_expect]
    refine ⟨fun position stored => ?_, fun none => .refused (by simp [Covered, none])⟩
    refine ⟨fun enough => ?_, fun short => .refused (by simp [Covered, stored, short])⟩
    refine (settle_settles position u.index).mono ?_ ?_
    · rintro settled t ⟨rfl, settles, rfl⟩
      refine call.mono (fun _ p moved => ?_) fun _ _ kept => kept.1 ▸ .unmoved kept.2
      simp only [ends_write]
      exact ⟨fun total _ _ _ _ => total, fun large =>
        .moved (fun covered => large (covered position stored enough settles)) moved⟩
    · rintro _ t ⟨rfl, unsettled⟩
      exact .refused (by simp [Covered, stored, unsettled])
  | claimYield =>
    simp only [Operation.exec, claimYield, insertPosition, onProtocol, ends_bind, ends_ensure, pos,
      ends_of_ok harvested, ends_zoom, ne_eq, not_false_eq_true, true_implies, not_true, false_implies,
      and_true, ends_read, ends_expect]
    refine ⟨fun position stored => ?_, fun none => .refused (by simp [Covered, none])⟩
    refine (settle_settles position u.index).mono ?_ ?_
    · rintro settled t ⟨rfl, settles, rfl⟩
      refine ⟨fun enough => ?_, fun short => .refused (by simp [Covered, stored, not_le.mp short])⟩
      refine call.mono (fun _ p moved => ?_) fun _ _ kept => kept.1 ▸ .unmoved kept.2
      simp only [ends_checked, ends_write, ends_pure]
      have checks (covered : Covered id amount u .claimYield) :=
        covered position stored settles enough
      refine ⟨fun claimed => ⟨fun owed other same _ _ => ?_, fun less =>
        .moved (fun covered => less (checks covered).2) moved⟩,
        fun large => .moved (fun covered => large (checks covered).1) moved⟩
      cases stored.symm.trans same
      exact ⟨claimed, owed⟩
    · rintro _ t ⟨rfl, unsettled⟩
      exact .refused (by simp [Covered, stored, unsettled])

/-- **When a failed operation has no effect.** For every state and every protocol whose call is
atomic there: exactly if the later checks pass, or the protocol's call changes nothing. -/
theorem leavesHarvest_iff (operation : Operation) (pos : amount ≠ 0) {credit : Nat}
    (harvested : harvest protocol now m = .ok credit u)
    (atomic : ∀ e p, operation.moves protocol amount now u.protocol = .error e p → p = u.protocol) :
    LeavesHarvest protocol id amount now operation m u ↔
      ∀ p, operation.moves protocol amount now u.protocol = .ok () p → p ≠ u.protocol →
        Covered id amount u operation := by
  have ended := exec_ends id operation pos harvested atomic
  unfold LeavesHarvest Proc.failure Proc.after
  cases ran : operation.exec protocol id amount now m with
  | ok _ t => simp [ended.1 _ t ran]
  | error e t =>
    simp only [ne_eq, reduceCtorEq, not_false_eq_true, true_implies]
    cases ended.2 e t ran with
    | refused covered => simp [covered]
    | unmoved none => simp [none]
    | @moved p uncovered moved =>
      simp only [moved, uncovered, EStateM.Result.ok.injEq, true_and, imp_false, forall_eq', not_not]
      exact ⟨congrArg YieldManager.protocol, fun same => same ▸ rfl⟩

end Operations

/-- A year after `yearAtFive` the protocol has gained 208. Vault 1 wants 2000 of its 1000, which the
protocol could pay: only the gain is credited. -/
theorem leavesHarvest_refused :
    (withdraw fixedRate 1 2000 63072000).failure yearAtFive.2 = some .insufficientPrincipal ∧
      ((harvest fixedRate 63072000).after yearAtFive.2).outstanding = yearAtFive.2.outstanding + 208 ∧
      LeavesHarvest fixedRate 1 2000 63072000 .withdraw yearAtFive.2
        ((harvest fixedRate 63072000).after yearAtFive.2) := by
  refine ⟨by decide +kernel, by decide +kernel, ?_⟩
  have gained : (harvest fixedRate 63072000).result yearAtFive.2 = .ok 208 := by decide +kernel
  have pays : (fixedRate.withdraw 63072000 2000).failure
      ((harvest fixedRate 63072000).after yearAtFive.2).protocol = none := by decide +kernel
  have less : (((harvest fixedRate 63072000).after yearAtFive.2).positions 1).all
      (·.principal < 2000) = true := by decide +kernel
  obtain ⟨left, harvested⟩ := result_eq_ok_iff.mp gained
  rw [after_of_ok harvested] at pays less ⊢
  refine (leavesHarvest_iff .withdraw (by decide) harvested fun e p failed => ?_).mpr
    fun _ _ _ position stored enough => ?_
  · change fixedRate.withdraw 63072000 2000 left.protocol = _ at failed
    rw [Proc.failure, failed] at pays
    cases pays
  · rw [Option.mem_def.mp stored, Option.all_some, decide_eq_true_iff] at less
    exact absurd enough (Nat.not_le.mpr less)

/-- **Paid and failed**: after two harvests of one gain the claim of one fails, and the protocol has
paid it. -/
theorem paid_and_failed :
    YieldRun fixedRate FixedRateProtocol.value (.new 10000 0) harvestedTwice.1 harvestedTwice.2 ∧
      (claimYield fixedRate 1 1 10512000).failure harvestedTwice.2 = some .insufficientYield ∧
      ¬ LeavesHarvest fixedRate 1 1 10512000 .claimYield harvestedTwice.2
        ((harvest fixedRate 10512000).after harvestedTwice.2) := by
  refine ⟨fixedRateCalls_run (by decide +kernel), by decide +kernel, fun leaves => ?_⟩
  have paid : ((Operation.claimYield.exec fixedRate 1 1 10512000).after harvestedTwice.2).protocol ≠
      ((harvest fixedRate 10512000).after harvestedTwice.2).protocol := by decide +kernel
  exact paid (congrArg YieldManager.protocol (leaves (by decide +kernel)))

end EthosContracts.VaultYield
