/-
**Yield credited to vaults, and what backs it.**

A harvest raises the index by the surplus over the total principal, rounded down, and adds to the
outstanding yield what this index step is worth in whole units, rounded down again. What the second
rounding drops is in the index all the same, and is measured as a surplus once more.
-/

import EthosContracts.VaultYield.Manager
import EthosContracts.Lib.Shares

namespace EthosContracts.VaultYield

open Lib Lib.Proc Function

variable {P : Type} {protocol : YieldProtocol P} {worth : P → Nat}

/-! ### What is credited -/

def Position.share (position : Position) : Share :=
  ⟨position.accrued, position.principal, position.indexSnapshot⟩

variable (manager : YieldManager P) (value : Nat)

def shareOf (id : Nat) : Share :=
  (manager.positions id).elim ⟨0, 0, 0⟩ Position.share

/-- **The yield of a vault** that is not claimed. -/
def credited (id : Nat) : Nat :=
  (shareOf manager id).credit indexScale manager.index

def YieldManager.gain : Nat :=
  value - (manager.totalPrincipal + manager.outstanding + manager.unallocated)

def YieldManager.indexDelta : Nat :=
  manager.gain value * indexScale / manager.totalPrincipal

def YieldManager.distributed : Nat :=
  manager.indexDelta value * manager.totalPrincipal / indexScale

/-- The manager after a harvest; without principal the surplus is not allocated. -/
def YieldManager.harvested (gained : P) : YieldManager P :=
  { manager with
    protocol := gained
    index := manager.index + manager.indexDelta value
    outstanding := manager.outstanding + manager.distributed value
    unallocated := manager.unallocated +
      if manager.totalPrincipal = 0 then manager.gain value else 0 }

def YieldInput.harvestsAt : YieldInput P → Option Nat
  | .call (.deposit _ amount now) | .call (.withdraw _ amount now)
  | .call (.claimYield _ amount now) => if amount = 0 then none else some now
  | .call (.harvest now) => some now
  | .gains _ => none

/-- **An exact harvest**: the step of the index is worth whole units. -/
def Exact (protocol : YieldProtocol P) (event : YieldEvent P) : Prop :=
  ∀ now ∈ event.input.harvestsAt, ∀ value gained,
    protocol.value now event.before.protocol = .ok value gained →
      indexScale ∣ event.before.indexDelta value * event.before.totalPrincipal

/-- **The principals and the credited yield are there**, and shown as they are. -/
structure Backed (protocol : YieldProtocol P) (worth : P → Nat) (history : List (YieldEvent P))
    (s : YieldManager P) : Prop where
  principals : Tally (fun id => (s.positions id).elim 0 Position.principal) s.totalPrincipal
  yields : ∃ total, Tally (credited s) total ∧ total ≤ s.outstanding
  shown : ∀ id amount t, pendingYield id s = .ok amount t → amount = credited s id
  covered : s.totalPrincipal + s.outstanding + s.unallocated ≤ worth s.protocol
  stable : ∀ earlier first now, history = earlier ++ [first] →
    first.input = .call (.harvest now) →
    (execYield protocol (.harvest now)).failure first.before = none →
    ∀ again amount t, harvest protocol again s = .ok amount t → worth t.protocol = worth s.protocol →
      ∀ id, credited t id = credited s id

section Calls

variable {σ : Type} {m : YieldManager P}

theorem indexScale_pos : 0 < indexScale := by decide

theorem settle_ends (position : Position) (index : Nat) {s : σ} : (position.settle index).ends s
      (fun settled t => s = t ∧ settled = { position with
        accrued := position.share.credit indexScale index
        indexSnapshot := index })
      fun e _ => e = .overflow := by
  simp only [Position.settle, Position.earnedSince, ends_bind, ends_ensure, ends_checked, ends_pure]
  exact ⟨fun _ => ⟨fun _ => ⟨fun _ => ⟨trivial, rfl⟩, fun _ => trivial⟩, fun _ => trivial⟩,
    fun _ => trivial⟩

theorem pendingYield_ends (id : Nat) :
    (pendingYield id).ends m (fun amount _ => amount = credited m id) fun _ _ => True := by
  simp only [pendingYield, Position.earnedSince, ends_bind, ends_read, ends_expect, ends_ensure,
    ends_checked, ends_pure]
  refine ⟨fun position stored => ⟨fun _ => ⟨fun _ => ⟨fun _ => ?_, fun _ => trivial⟩,
    fun _ => trivial⟩, fun _ => trivial⟩, fun _ => trivial⟩
  rw [credited, shareOf, stored]
  rfl

theorem harvest_ends (now : Nat) : (harvest protocol now).ends m
      (fun _ t => ∃ value gained, protocol.value now m.protocol = .ok value gained ∧
        t = m.harvested value gained)
      fun e t => e ≠ .overflow → ∃ gained, protocol.value now m.protocol = .error e gained ∧
        t = { m with protocol := gained } := by
  simp only [harvest, onProtocol, ends_bind, ends_zoom]
  refine ⟨fun value gained reported => ?_, fun e gained failed _ => ⟨gained, failed, rfl⟩⟩
  simp only [ends_read, ends_checked, ends_ite, ends_pure, ends_write, id_eq, ne_eq,
    not_true_eq_false, false_implies, implies_true, and_true, ends_bind]
  intro _ _
  refine ⟨fun none => ⟨value, gained, reported, ?_⟩, fun some => ⟨fun empty _ =>
    ⟨value, gained, reported, ?_⟩, fun full _ _ _ _ => ⟨value, gained, reported, ?_⟩⟩⟩
  · have nothing : m.gain value = 0 := none
    simp [YieldManager.harvested, YieldManager.distributed, YieldManager.indexDelta, nothing]
  · simp [YieldManager.harvested, YieldManager.distributed, YieldManager.indexDelta,
      YieldManager.gain, empty]
  · simp [YieldManager.harvested, YieldManager.distributed, YieldManager.indexDelta,
      YieldManager.gain, full]

end Calls

/-! ### The invariant -/

/-- **The books of the index are covered**, and everything is covered by the protocol. -/
structure Backing (worth : P → Nat) (m : YieldManager P) : Prop where
  book : ShareBook indexScale (shareOf m) m.index m.totalPrincipal m.outstanding
  covered : m.totalPrincipal + m.outstanding + m.unallocated ≤ worth m.protocol

section Invariant

variable {m : YieldManager P} {id amount now value : Nat} {gained : P} {position : Position}

theorem Backing.idle (backing : Backing worth m) (more : worth m.protocol ≤ worth gained) :
    Backing worth { m with protocol := gained } :=
  ⟨backing.book, backing.covered.trans more⟩

theorem distributed_le (m : YieldManager P) (value : Nat) : m.distributed value ≤ m.gain value :=
  Nat.div_le_of_le_mul ((Nat.div_mul_le_self _ _).trans (Nat.mul_comm _ _).le)

theorem Backing.harvested (backing : Backing worth m) (more : worth m.protocol ≤ value)
    (reported : value = worth gained)
    (exact : indexScale ∣ m.indexDelta value * m.totalPrincipal) :
    Backing worth (m.harvested value gained) := by
  refine ⟨backing.book.advance ?_, ?_⟩
  · rw [Nat.mul_comm, YieldManager.distributed, Nat.div_mul_cancel exact]
  · show m.totalPrincipal + (m.outstanding + m.distributed value) + (m.unallocated + _) ≤ worth gained
    have covered := backing.covered
    have bound := distributed_le m value
    rw [YieldManager.gain] at bound
    split
    · rename_i empty
      have nothing : m.distributed value = 0 := by simp [YieldManager.distributed, empty]
      rw [YieldManager.gain]
      omega
    · omega

theorem harvest_backing (lawful : Lawful protocol worth) (backing : Backing worth m)
    (exact : ∀ value gained, protocol.value now m.protocol = .ok value gained →
      indexScale ∣ m.indexDelta value * m.totalPrincipal) :
    (harvest protocol now).ends m (fun _ t => Backing worth t)
      fun e t => e ≠ .overflow → Backing worth t := by
  refine (harvest_ends now).mono ?_ ?_
  · rintro _ t ⟨value, gained, reported, rfl⟩
    obtain ⟨same, more⟩ := (lawful.value now m.protocol).1 value gained reported
    exact backing.harvested (same ▸ more) same (exact value gained reported)
  · intro e t failed other
    obtain ⟨gained, reported, rfl⟩ := failed other
    exact backing.idle ((lawful.value now m.protocol).2 e gained reported)

theorem shareOf_insert : shareOf { m with
      positions := update m.positions id (some position) } =
    update (shareOf m) id position.share := by
  funext other
  by_cases same : other = id
  · subst same
    simp [shareOf]
  · simp [shareOf, same]

theorem Backing.moved (backing : Backing worth m) {total outstanding : Nat}
    (settled : position.indexSnapshot = m.index)
    (weighed : total + (shareOf m id).weight = m.totalPrincipal + position.principal)
    (owes : position.accrued * indexScale + m.outstanding * indexScale ≤
      (shareOf m id).owed indexScale m.index + outstanding * indexScale)
    (covered : total + outstanding + m.unallocated ≤ worth gained) :
    Backing worth { m with
      protocol := gained
      positions := update m.positions id (some position)
      totalPrincipal := total
      outstanding := outstanding } := by
  refine ⟨?_, covered⟩
  show ShareBook indexScale (shareOf { m with
    positions := update m.positions id (some position) }) m.index total outstanding
  rw [shareOf_insert]
  refine backing.book.replace id settled.le weighed ?_
  rw [Position.share, settled, Share.owed_at]
  exact owes

theorem shareOf_stored (stored : m.positions id = some position) :
    shareOf m id = position.share := by
  rw [shareOf, stored]
  rfl

theorem credit_le_owed (stored : m.positions id = some position) :
    position.share.credit indexScale m.index * indexScale ≤
      (shareOf m id).owed indexScale m.index := by
  rw [shareOf_stored stored]
  exact Share.credit_mul_le _ _ _

theorem opened_share (m : YieldManager P) (id : Nat) :
    ((m.positions id).getD (.new m.index)).principal = (shareOf m id).weight ∧
      ((m.positions id).getD (.new m.index)).share.credit indexScale m.index * indexScale ≤
        (shareOf m id).owed indexScale m.index := by
  cases stored : m.positions id with
  | none => simp [shareOf, stored, Position.new, Position.share, Share.credit, Share.owed]
  | some position => exact ⟨by rw [shareOf_stored stored]; rfl, credit_le_owed stored⟩

section Calls

variable (lawful : Lawful protocol worth) (backing : Backing worth m)
  (exact : amount ≠ 0 → ∀ value gained, protocol.value now m.protocol = .ok value gained →
    indexScale ∣ m.indexDelta value * m.totalPrincipal)

include lawful backing exact

theorem deposit_backing : (deposit protocol id amount now).ends m (fun _ t => Backing worth t)
      fun e t => e ≠ .overflow → Backing worth t := by
  simp only [deposit, insertPosition, ends_bind, ends_ensure]
  refine ⟨fun some => ?_, fun _ _ => backing⟩
  refine (harvest_backing lawful backing (exact some)).mono (fun _ u backing => ?_) fun _ _ kept => kept
  simp only [onProtocol, ends_zoom]
  refine (lawful.deposit now amount u.protocol).mono (fun _ gained more => ?_)
    fun _ gained more _ => backing.idle more
  simp only [ends_read]
  refine (settle_ends _ u.index).mono ?_ fun e _ failed other => absurd failed other
  rintro settled _ ⟨rfl, rfl⟩
  simp only [ends_checked, ends_write, ne_eq, not_true_eq_false, false_implies, implies_true,
    and_true]
  intro _ _
  obtain ⟨weight, owed⟩ := opened_share u id
  have covered := backing.covered
  have weighed : u.totalPrincipal + amount + (shareOf u id).weight = u.totalPrincipal +
      (((u.positions id).getD (.new u.index)).principal + amount) := by omega
  exact backing.moved rfl weighed (Nat.add_le_add_right owed _) (by omega)

theorem withdraw_backing :
    (withdraw protocol id amount now).ends m (fun _ t => Backing worth t)
      fun e t => e ≠ .overflow → Backing worth t := by
  simp only [withdraw, insertPosition, ends_bind, ends_ensure]
  refine ⟨fun some => ?_, fun _ _ => backing⟩
  refine (harvest_backing lawful backing (exact some)).mono (fun _ u backing => ?_) fun _ _ kept => kept
  simp only [ends_read, ends_expect]
  refine ⟨fun position stored => ⟨fun enough => ?_, fun _ _ => backing⟩, fun _ _ => backing⟩
  refine (settle_ends position u.index).mono ?_ fun e _ failed other => absurd failed other
  rintro settled _ ⟨rfl, rfl⟩
  simp only [onProtocol, ends_zoom]
  refine (lawful.withdraw now amount u.protocol).mono (fun _ gained less => ?_)
    fun _ gained more _ => backing.idle more
  simp only [ends_write, ne_eq, not_true_eq_false, false_implies, implies_true, and_true]
  intro funded
  have weighed : u.totalPrincipal - amount + (shareOf u id).weight =
      u.totalPrincipal + (position.principal - amount) := by
    rw [shareOf_stored stored]
    show u.totalPrincipal - amount + position.principal = _
    omega
  have covered := backing.covered
  exact backing.moved rfl weighed (Nat.add_le_add_right (credit_le_owed stored) _) (by omega)

theorem claimYield_backing :
    (claimYield protocol id amount now).ends m (fun _ t => Backing worth t)
      fun e t => e ≠ .overflow → Backing worth t := by
  simp only [claimYield, insertPosition, ends_bind, ends_ensure]
  refine ⟨fun some => ?_, fun _ _ => backing⟩
  refine (harvest_backing lawful backing (exact some)).mono (fun _ u backing => ?_) fun _ _ kept => kept
  simp only [ends_read, ends_expect]
  refine ⟨fun position stored => ?_, fun _ _ => backing⟩
  refine (settle_ends position u.index).mono ?_ fun e _ failed other => absurd failed other
  rintro settled _ ⟨rfl, rfl⟩
  refine ⟨fun enough => ?_, fun _ _ => backing⟩
  change amount ≤ position.share.credit indexScale u.index at enough
  simp only [onProtocol, ends_zoom]
  refine (lawful.withdraw now amount u.protocol).mono (fun _ gained less => ?_)
    fun _ gained more _ => backing.idle more
  simp only [ends_checked, ends_write, ends_pure, ne_eq, not_true_eq_false, false_implies,
    implies_true, and_true]
  intro _
  have most := backing.book.credit_le indexScale_pos id
  rw [shareOf_stored stored] at most
  have funded : amount ≤ u.outstanding := Nat.le_trans enough most
  refine ⟨fun _ => ?_, fun short => absurd funded short⟩
  have owes : (position.share.credit indexScale u.index - amount) * indexScale +
      u.outstanding * indexScale ≤ (shareOf u id).owed indexScale u.index +
        (u.outstanding - amount) * indexScale := by
    have owed := credit_le_owed stored
    have part := Nat.mul_le_mul_right indexScale enough
    have paid := Nat.mul_le_mul_right indexScale funded
    rw [Nat.sub_mul, Nat.sub_mul]
    omega
  have covered := backing.covered
  exact backing.moved rfl (by rw [shareOf_stored stored]; rfl) owes (by omega)

end Calls

end Invariant

section Runs

variable {history : List (YieldEvent P)} {s t : YieldManager P} {input : YieldInput P} {start : P}

theorem yieldStep_backing (lawful : Lawful protocol worth) (backing : Backing worth s)
    (exact : Exact protocol ⟨s, input, t⟩) (stepped : yieldStep protocol worth s input t) :
    Backing worth t := by
  cases input with
  | gains gained =>
    obtain ⟨more, rfl⟩ := stepped
    exact backing.idle more
  | call call =>
    obtain ⟨rfl, fits⟩ := stepped
    have harvests (amount now : Nat)
        (at_now : amount ≠ 0 → (YieldInput.call (P := P) call).harvestsAt = some now) :
        amount ≠ 0 → ∀ value gained, protocol.value now s.protocol = .ok value gained →
          indexScale ∣ s.indexDelta value * s.totalPrincipal :=
      fun some => exact now (at_now some)
    refine ends.after ?_ fits
    cases call with
    | deposit id amount now =>
      exact deposit_backing lawful backing (harvests amount now fun some => if_neg some)
    | withdraw id amount now =>
      exact withdraw_backing lawful backing (harvests amount now fun some => if_neg some)
    | harvest now =>
      simp only [execYield.eq_def, ends_bind, ends_pure]
      exact harvest_backing lawful backing (exact now rfl)
    | claimYield id amount now =>
      simp only [execYield.eq_def, ends_bind, ends_pure]
      exact claimYield_backing lawful backing (harvests amount now fun some => if_neg some)

theorem backing_start (worth : P → Nat) (start : P) : Backing worth (.new start) :=
  ⟨⟨tally_zero, fun _ => le_rfl, 0, by simpa [shareOf, YieldManager.new, Share.owed] using tally_zero,
    Nat.zero_le _⟩, Nat.zero_le _⟩

theorem run_backing (lawful : Lawful protocol worth) (run : YieldRun protocol worth start history s)
    (exact : ∀ event ∈ history, Exact protocol event) : Backing worth s := by
  induction run with
  | nil => exact backing_start worth start
  | snoc run stepped ih =>
    have backing := ih (forall_mem_concat.mp exact).1
    exact yieldStep_backing lawful backing (exact _ List.mem_concat_self) stepped

variable {m : YieldManager P} {value : Nat} {gained : P}

theorem indexDelta_harvested (exact : indexScale ∣ m.indexDelta value * m.totalPrincipal) :
    (m.harvested value gained).indexDelta value = 0 := by
  by_cases empty : m.totalPrincipal = 0
  · simp [YieldManager.indexDelta, YieldManager.harvested, empty]
  have left : (m.harvested value gained).gain value = m.gain value - m.distributed value := by
    simp only [YieldManager.gain, YieldManager.harvested, if_neg empty]
    omega
  have paid : m.distributed value * indexScale = m.indexDelta value * m.totalPrincipal :=
    Nat.div_mul_cancel exact
  have rest : (m.gain value - m.distributed value) * indexScale < m.totalPrincipal := by
    have whole := Nat.div_add_mod (m.gain value * indexScale) m.totalPrincipal
    have small := Nat.mod_lt (m.gain value * indexScale) (Nat.pos_of_ne_zero empty)
    rw [Nat.sub_mul, paid, YieldManager.indexDelta, Nat.mul_comm _ m.totalPrincipal]
    omega
  rw [YieldManager.indexDelta, left]
  exact Nat.div_eq_of_lt rest

theorem credited_harvested_again {again amount : Nat}
    (lawful : Lawful protocol worth) (reported : value = worth gained)
    (exact : indexScale ∣ m.indexDelta value * m.totalPrincipal)
    (second : harvest protocol again (m.harvested value gained) = .ok amount t)
    (unchanged : worth t.protocol = worth gained) (id : Nat) :
    credited t id = credited (m.harvested value gained) id := by
  obtain ⟨measured, more, found, rfl⟩ := (harvest_ends again).1 amount t second
  have equal : measured = value :=
    (((lawful.value again _).1 measured more found).1.trans unchanged).trans reported.symm
  have still : (m.harvested value gained).indexDelta measured = 0 := by
    rw [equal]
    exact indexDelta_harvested exact
  show (shareOf m id).credit indexScale
    ((m.harvested value gained).index + (m.harvested value gained).indexDelta measured) = _
  rw [still, Nat.add_zero]
  rfl

/-- **Yield is backed** in every run whose harvests are exact. -/
theorem backed_of_exact (lawful : Lawful protocol worth)
    (run : YieldRun protocol worth start history s)
    (exact : ∀ event ∈ history, Exact protocol event) : Backed protocol worth history s := by
  have backing := run_backing lawful run exact
  refine ⟨?_, backing.book.credits indexScale_pos, ?_, backing.covered, ?_⟩
  · have same : (fun id => (s.positions id).elim 0 Position.principal) =
        fun id => (shareOf s id).weight := by
      funext id
      rw [shareOf]
      cases s.positions id <;> rfl
    rw [same]
    exact backing.book.weights
  · exact fun id amount t ran => (pendingYield_ends id).1 amount t ran
  · intro earlier first now whole input ran again amount t second unchanged id
    obtain ⟨-, stepped, rest⟩ := run.at_split whole
    obtain rfl := rest.eq_start
    have exact := exact first (by simp [whole])
    unfold Exact at exact
    rw [input] at stepped exact
    obtain ⟨after, -⟩ := stepped
    have ended : (execYield protocol (.harvest now)).ends first.before
        (fun _ t => ∃ value gained, protocol.value now first.before.protocol = .ok value gained ∧
          t = first.before.harvested value gained) fun _ _ => True := by
      simp only [execYield.eq_def, ends_bind, ends_pure]
      exact (harvest_ends now).mono (fun _ _ kept => kept) fun _ _ _ => trivial
    obtain ⟨-, value, gained, reported, same⟩ := ended.after_ok ran
    rw [same] at after
    rw [after] at second unchanged ⊢
    exact credited_harvested_again lawful ((lawful.value now _).1 value gained reported).1
      (exact now rfl value gained reported) second unchanged id

end Runs

/-! ### Two runs at a fixed rate -/

section FixedRate

def execFixed : YieldInput FixedRateProtocol → YieldProc FixedRateProtocol Unit
  | .call call => execYield fixedRate call
  | .gains gained => write fun manager => { manager with protocol := gained }

def fixedRateCalls (rateBps : Nat) (calls : List YieldCall) :
    List (YieldEvent FixedRateProtocol) × YieldManager FixedRateProtocol :=
  perform execFixed (.new (.new rateBps 0)) (calls.map .call)

def fits (event : YieldEvent FixedRateProtocol) : Bool :=
  match event.input with
  | .call call => (execYield fixedRate call).failure event.before ≠ some .overflow
  | .gains _ => false

theorem fixedRateCalls_run {rateBps : Nat} {calls : List YieldCall}
    (fit : ∀ event ∈ (fixedRateCalls rateBps calls).1, fits event = true) :
    YieldRun fixedRate FixedRateProtocol.value (.new rateBps 0) (fixedRateCalls rateBps calls).1
      (fixedRateCalls rateBps calls).2 := by
  refine perform_run fun event member after => ?_
  have fit := fit event member
  obtain ⟨before, input, final⟩ := event
  cases input with
  | call call => exact ⟨after, of_decide_eq_true fit⟩
  | gains => cases fit

def exactly (event : YieldEvent FixedRateProtocol) : Bool :=
  event.input.harvestsAt.all fun now =>
    match fixedRate.value now event.before.protocol with
    | .ok value _ => indexScale ∣ event.before.indexDelta value * event.before.totalPrincipal
    | .error _ _ => true

theorem exact_of_exactly {event : YieldEvent FixedRateProtocol} (check : exactly event = true) :
    Exact fixedRate event := by
  intro now harvests value gained reported
  rw [exactly, Option.mem_def.mp harvests, Option.all_some, reported] at check
  exact of_decide_eq_true check

def yearAtFive : List (YieldEvent FixedRateProtocol) × YieldManager FixedRateProtocol :=
  fixedRateCalls 500 [.deposit 1 1000 0, .deposit 2 3000 0, .harvest 31536000,
    .claimYield 1 30 31536000]

theorem backed_yearAtFive :
    credited yearAtFive.2 1 = 20 ∧ credited yearAtFive.2 2 = 150 ∧ yearAtFive.2.outstanding = 170 ∧
      Backed fixedRate FixedRateProtocol.value yearAtFive.1 yearAtFive.2 := by
  have exact : ∀ event ∈ yearAtFive.1, exactly event = true := by decide +kernel
  exact ⟨by decide +kernel, by decide +kernel, by decide +kernel,
    backed_of_exact fixedRate_lawful (fixedRateCalls_run (by decide +kernel))
      fun event member => exact_of_exactly (exact event member)⟩

def harvestedTwice : List (YieldEvent FixedRateProtocol) × YieldManager FixedRateProtocol :=
  fixedRateCalls 10000 [.deposit 1 3 0, .harvest 10512000, .harvest 10512000]

/-- **Credited twice**: the vault has a yield of one and nothing is outstanding; a claim of it
fails, and the protocol has paid it. -/
theorem credited_twice :
    YieldRun fixedRate FixedRateProtocol.value (.new 10000 0) harvestedTwice.1 harvestedTwice.2 ∧
      credited harvestedTwice.2 1 = 1 ∧ harvestedTwice.2.outstanding = 0 ∧
      (claimYield fixedRate 1 1 10512000).failure harvestedTwice.2 = some .insufficientYield ∧
      harvestedTwice.2.protocol.value = 4 ∧
      ((claimYield fixedRate 1 1 10512000).after harvestedTwice.2).protocol.value = 3 ∧
      ¬ Backed fixedRate FixedRateProtocol.value harvestedTwice.1 harvestedTwice.2 := by
  have one : credited harvestedTwice.2 1 = 1 := by decide +kernel
  have none : harvestedTwice.2.outstanding = 0 := by decide +kernel
  refine ⟨fixedRateCalls_run (by decide +kernel), one, none, by decide +kernel, by decide +kernel,
    by decide +kernel, fun backed => ?_⟩
  obtain ⟨total, tally, covered⟩ := backed.yields
  have least := tally.le_total (fun _ => Nat.zero_le _) 1
  omega

end FixedRate

end EthosContracts.VaultYield
