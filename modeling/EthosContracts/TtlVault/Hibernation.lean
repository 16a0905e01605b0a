/-
**Hibernation as a paused countdown.**

A vault keeps its last check-in and at most one hibernation entry: a stopwatch with one pause
(`State.watch`). The law speaks of the whole history of the vault since it was opened.
-/

import EthosContracts.Lib.Stopwatch
import EthosContracts.TtlVault.ControlTerms
import EthosContracts.TtlVault.ExpiryViews

namespace EthosContracts.TtlVault

open Lib Function List

/-! ### The law -/

def Call.checksIn (id : VaultId) : Call → Bool
  | .checkIn vaultId .. => vaultId = id
  | _ => false

def lastSign (id : VaultId) (created : Nat) (later : History) : Nat :=
  later.foldl
    (fun time event => if event.input.call.checksIn id then event.input.env.now else time) created

/-- In that second the vault hibernates, by what was called since. -/
def Asleep (id : VaultId) (later : History) (second : Nat) : Prop :=
  ∃ before entry after caller duration, later = before ++ entry :: after ∧
    entry.input.call = .record (.enterHibernation id caller duration) ∧
    entry.input.env.now ≤ second ∧ second < entry.input.env.now + duration ∧
    ∀ exit ∈ after, ∀ caller, exit.input.call = .exitHibernation id caller →
      second < exit.input.env.now

/-- **Hibernation pauses the countdown and nothing more**, after the events `later` on a vault. -/
def CountdownPauses (id : VaultId) (created : Nat) (later : History) (s : State) : Prop :=
  ∀ env v, s.vaults id = some v → created ≤ env.now →
    (∀ event ∈ later, event.input.env.now ≤ env.now) → env.now ≤ maxU64 →
    (isExpired env id s = .ok (true, s) ↔
      v.checkInInterval ≤ unpaused (Asleep id later) (lastSign id created later) env.now)

/-- The calls that the law is about. -/
inductive Countdown (id : VaultId) : Call → Prop
  | checkIn {caller passkeyHash nonce} : Countdown id (.checkIn id caller passkeyHash nonce)
  | enter {caller duration} : Countdown id (.record (.enterHibernation id caller duration))
  | exit {caller} : Countdown id (.exitHibernation id caller)

def State.timing (s : State) (id : VaultId) : Option (Nat × Nat) × Option HibernationEntry :=
  ((s.vaults id).map fun v => (v.lastCheckIn, v.checkInInterval), s.checkIns.hibernation id)

/-- An event of the countdown, or one that leaves it alone. -/
def CountsDown (id : VaultId) (event : VaultEvent) : Prop :=
  Countdown id event.input.call ∨ event.after.timing id = event.before.timing id

/-- The condition: no check-in while a hibernation is on record, and none is entered too late. -/
structure Paced (id : VaultId) (env : Env) (s : State) (call : Call) : Prop where
  checkIns : call.checksIn id = true → ∀ h ∈ s.checkIns.hibernation id, env.now = h.startedAt
  entries : ∀ caller duration, call = .record (.enterHibernation id caller duration) →
    ∀ v ∈ s.vaults id, env.now < v.deadline

/-- Time goes on, within the range of the ledger's times. -/
structure Chronological (created : Nat) (later : History) : Prop where
  ordered : (created :: later.map (·.input.env.now)).Pairwise (· ≤ ·)
  bounded : ∀ event ∈ later, event.input.env.now ≤ maxU64

/-! ### One more event -/

section Snoc

variable {id : VaultId} {later : History} {event : VaultEvent} {second : Nat}

theorem lastSign_snoc (created : Nat) : lastSign id created (later ++ [event]) =
    if event.input.call.checksIn id then event.input.env.now else lastSign id created later := by
  unfold lastSign
  rw [foldl_append, foldl_cons, foldl_nil]

theorem asleep_snoc : Asleep id (later ++ [event]) second ↔ (Asleep id later second ∧
      ∀ caller, event.input.call = .exitHibernation id caller → second < event.input.env.now) ∨
    ∃ caller duration, event.input.call = .record (.enterHibernation id caller duration) ∧
      event.input.env.now ≤ second ∧ second < event.input.env.now + duration := by
  constructor
  · rintro ⟨before, entry, after, caller, duration, whole, called, reached, inside, open_⟩
    rcases concat_eq_split.mp whole with ⟨rfl, rfl, -⟩ | ⟨front, rfl, rfl⟩
    · exact .inr ⟨caller, duration, called, reached, inside⟩
    · obtain ⟨earlier, last⟩ := forall_mem_concat.mp open_
      exact .inl ⟨⟨before, entry, front, caller, duration, rfl, called, reached, inside, earlier⟩,
        last⟩
  · rintro (⟨⟨before, entry, after, caller, duration, rfl, called, reached, inside, open_⟩, last⟩ |
      ⟨caller, duration, called, reached, inside⟩)
    · exact ⟨before, entry, after ++ [event], caller, duration,
        concat_eq_split.mpr (.inr ⟨after, rfl, rfl⟩), called, reached, inside,
        forall_mem_concat.mpr ⟨open_, last⟩⟩
    · exact ⟨later, event, [], caller, duration, rfl, called, reached, inside, forall_mem_nil _⟩

theorem asleep_enter {caller : Address} {duration : Nat}
    (called : event.input.call = .record (.enterHibernation id caller duration)) :
    Asleep id (later ++ [event]) second ↔ Asleep id later second ∨
      (event.input.env.now ≤ second ∧ second < event.input.env.now + duration) := by
  rw [asleep_snoc, called]
  constructor
  · rintro (⟨asleep, -⟩ | ⟨_, _, ⟨⟩, inside⟩)
    · exact .inl asleep
    · exact .inr inside
  · rintro (asleep | inside)
    · exact .inl ⟨asleep, nofun⟩
    · exact .inr ⟨caller, duration, rfl, inside⟩

theorem asleep_exit {caller : Address} (called : event.input.call = .exitHibernation id caller) :
    Asleep id (later ++ [event]) second ↔
      Asleep id later second ∧ second < event.input.env.now := by
  rw [asleep_snoc, called]
  constructor
  · rintro (⟨asleep, before⟩ | ⟨_, _, ⟨⟩, _⟩)
    exact ⟨asleep, before caller rfl⟩
  · intro ⟨asleep, before⟩
    exact .inl ⟨asleep, fun _ _ => before⟩

theorem asleep_other
    (enters : ∀ caller duration, event.input.call ≠ .record (.enterHibernation id caller duration))
    (exits : ∀ caller, event.input.call ≠ .exitHibernation id caller) :
    Asleep id (later ++ [event]) = Asleep id later := by
  ext second
  rw [asleep_snoc]
  constructor
  · rintro (⟨asleep, -⟩ | ⟨caller, duration, called, -⟩)
    · exact asleep
    · exact absurd called (enters caller duration)
  · intro asleep
    exact .inl ⟨asleep, fun caller called => absurd called (exits caller)⟩

end Snoc

/-! ### What the calls do to the countdown -/

section Calls

variable (env : Env) (s : State) (vaultId id : VaultId) (caller : Address)

/-- A check-in restarts the countdown and leaves the hibernation entries alone. -/
def CheckedIn (t : State) : Prop :=
  t.checkIns.hibernation = s.checkIns.hibernation ∧ ∃ v w, s.vaults vaultId = some v ∧
    t.vaults vaultId = some w ∧ w.lastCheckIn = env.now ∧ w.checkInInterval = v.checkInInterval

theorem recordCheckIn_timing {v : Vault} (found : s.vaults id = some v) (passkeyHash : Hash)
    (nonces : VaultId → Address → Nat) :
    (recordCheckIn env id v passkeyHash).wp { s with checkIns.delegateNonce := nonces }
      fun _ t => CheckedIn env s id t := by
  refine Tx.wp.mono (recordCheckIn_spec env _ id v passkeyHash) ?_
  rintro _ t ⟨-, u, balance, -, rfl⟩
  exact ⟨rfl, v, _, found, update_self .., rfl, rfl⟩

theorem checkIn_timing (passkeyHash : Hash) (nonce : Nat) :
    (checkIn env id caller passkeyHash nonce).wp s fun _ t => CheckedIn env s id t := by
  simp only [checkIn, useDelegateNonce, wp_rules]
  intro _ _ v found _ _
  refine ⟨fun _ _ _ => ?_, fun _ => ?_⟩
  · exact recordCheckIn_timing env s id found passkeyHash _
  · exact recordCheckIn_timing env s id found passkeyHash s.checkIns.delegateNonce

theorem enterHibernation_timing (duration : Nat) :
    (enterHibernation env id caller duration).wp s fun _ t =>
      t.vaults = s.vaults ∧ s.checkIns.hibernation id = none ∧
        t.checkIns.hibernation id = some ⟨env.now, duration⟩ := by
  simp only [enterHibernation, setHibernation, wp_rules]
  intro _ _ _ v _ _ _ none _
  exact ⟨trivial, Option.isNone_iff_eq_none.mp none, update_self ..⟩

theorem exitHibernation_timing : (exitHibernation env id caller).wp s fun _ t =>
      ∃ v h, s.vaults id = some v ∧ s.checkIns.hibernation id = some h ∧
        t.vaults id = some { v with
          lastCheckIn := saturatingAdd v.lastCheckIn
            (min (env.now - h.startedAt) h.durationSeconds) } ∧
        t.checkIns.hibernation id = none := by
  simp only [exitHibernation, setHibernation, wp_rules]
  intro _ v found _ _ h stored
  exact ⟨v, h, found, stored, update_self .., update_self ..⟩

end Calls

def Call.opens : Call → Bool
  | .createVault .. => true
  | call => call.copies

/-- A new vault starts counting now. -/
def Opened (env : Env) (s t : State) : Prop :=
  t.checkIns.hibernation = s.checkIns.hibernation ∧
    ∃ w, t.vaults (s.vaultCount + 1) = some w ∧ w.lastCheckIn = env.now

theorem registerClone_opened (env : Env) {clone : Vault} (now : clone.lastCheckIn = env.now)
    (s : State) : (registerClone clone).wp s fun _ t => Opened env s t := by
  simp only [registerClone, addOwnerVaultId, addBeneficiaryVaultId, wp_rules]
  intro _
  exact ⟨rfl, clone, update_self .., now⟩

theorem exec_opened (env : Env) (s : State) {call : Call} (opens : call.opens = true) :
    (exec env call).wp s fun _ t => Opened env s t := by
  cases call with
  | createVault owner beneficiary interval token =>
    simp only [exec.eq_def, createVault, initPasskeys, assertOwnerCapacity, addOwnerVaultId,
      addBeneficiaryVaultId, setVaultDuplicate, wp_rules]
    intros
    refine (chooseToken_readonly token).wp fun chosen _ => ?_
    exact ⟨rfl, _, update_self .., rfl⟩
  | cloneVault =>
    simp only [exec.eq_def, cloneVault, wp_rules]
    intros
    exact registerClone_opened env rfl s
  | cloneVaultWithOverrides sourceVaultId newOwner newBeneficiary interval beneficiaries metadata =>
    simp only [exec.eq_def, cloneVaultWithOverrides, wp_rules]
    intro _ original _ _ _ _
    refine (overrideInterval_readonly original.checkInInterval interval).wp fun chosen => ?_
    refine (overrideBeneficiaries_spec s newOwner original.beneficiaries beneficiaries).mono ?_
    rintro entries t ⟨rfl, -⟩ _
    exact registerClone_opened env rfl t
  | createVaultFromInheritance parentVaultId caller newBeneficiary interval token =>
    simp only [exec.eq_def, createVaultFromInheritance, addOwnerVaultId, addBeneficiaryVaultId,
      wp_rules]
    intros
    refine (chooseToken_readonly token).wp fun chosen _ => ?_
    exact ⟨rfl, _, update_self .., rfl⟩
  | _ => cases opens

variable {host : Host} {start s : State} {created : Nat} {later : History}

theorem run_hibernation {history : History}
    (run : ContractRun host start history s) (regular : start.Regular)
    (fresh : ∀ id, start.checkIns.hibernation id = none) :
    ∀ id, s.vaults id = none → s.checkIns.hibernation id = none := by
  refine regular_invariant run regular (fun u => ∀ id, u.vaults id = none →
    u.checkIns.hibernation id = none) (fun _ _ => True) (fun id _ => fresh id)
    (fun u input t regular holds _ stepped id absent => ?_) fun _ _ => trivial
  have controlled := step_controlled stepped
  -- a vault that is not there now was not there before
  have before : u.vaults id = none := by
    by_contra present
    obtain ⟨v, found⟩ := Option.ne_none_iff_exists'.mp present
    obtain ⟨w, written, -⟩ := controlled.terms regular.counted found
    cases absent.symm.trans written
  have hibernation := controlled.hibernation
  generalize t.checkIns.hibernation = entries at hibernation ⊢
  generalize input.call = call at hibernation
  cases hibernation with
  | kept => exact holds id before
  | entered found =>
    rename_i target caller duration v
    have ne : id ≠ target := by
      intro same
      rw [same, found] at before
      cases before
    rw [update_of_ne ne]
    exact holds id before
  | exited =>
    rename_i target caller
    by_cases same : id = target
    · rw [same, update_self]
    · rw [update_of_ne same]
      exact holds id before

/-! ### The vault as a stopwatch -/

def State.watch (s : State) (id : VaultId) (v : Vault) : Stopwatch :=
  ⟨v.lastCheckIn, (s.checkIns.hibernation id).map fun h => (h.startedAt, h.durationSeconds)⟩

/-- **The stored times keep the time of the history**, and the vault entered its hibernation before
its deadline. -/
def KeepsTime (id : VaultId) (created : Nat) (later : History) (s : State) : Prop :=
  ∃ v, s.vaults id = some v ∧
    (∀ now, created ≤ now → (∀ event ∈ later, event.input.env.now ≤ now) →
      (s.watch id v).Keeps (Asleep id later) (lastSign id created later) now) ∧
    ∀ h ∈ s.checkIns.hibernation id, h.startedAt < v.deadline

section Watch

variable {id : VaultId} {created : Nat} {later : History} {s : State} {v : Vault}

theorem watch_awake (awake : s.checkIns.hibernation id = none) :
    s.watch id v = ⟨v.lastCheckIn, none⟩ := by
  rw [State.watch, awake, Option.map_none]

theorem watch_asleep {h : HibernationEntry} (stored : s.checkIns.hibernation id = some h) :
    s.watch id v = ⟨v.lastCheckIn, some (h.startedAt, h.durationSeconds)⟩ := by
  rw [State.watch, stored, Option.map_some]

theorem KeepsTime.expired_iff (keeps : KeepsTime id created later s) :
    CountdownPauses id created later s := by
  intro env w found after all time
  obtain ⟨v, stored, keeps, entered⟩ := keeps
  obtain rfl := Option.mem_unique stored found
  have keeping := keeps env.now after all
  rw [isExpired_true_iff found time, keeping.unpaused_eq le_rfl]
  unfold Vault.deadline at entered ⊢
  cases hibernation : s.checkIns.hibernation id with
  | none =>
    rw [watch_awake hibernation] at keeping ⊢
    have marked : v.lastCheckIn ≤ env.now := keeping.2.1
    show _ ↔ v.checkInInterval ≤ env.now - v.lastCheckIn
    constructor
    · intro expired
      have reached := expired.1
      omega
    · intro counted
      exact ⟨by omega, fun h member => by cases member⟩
  | some h =>
    rw [watch_asleep hibernation] at keeping ⊢
    have marked : v.lastCheckIn ≤ h.startedAt := keeping.2.2.1
    have before := entered h hibernation
    show _ ↔ v.checkInInterval ≤
      h.startedAt - v.lastCheckIn + (env.now - (h.startedAt + h.durationSeconds))
    simp only [Option.mem_some_iff, forall_eq']
    omega

theorem keepsTime_snoc {event : VaultEvent} (stored : event.after.vaults id = some v)
    (keeps : (event.after.watch id v).Keeps (Asleep id (later ++ [event]))
      (lastSign id created (later ++ [event])) event.input.env.now)
    (entered : ∀ h ∈ event.after.checkIns.hibernation id, h.startedAt < v.deadline) :
    KeepsTime id created (later ++ [event]) event.after := by
  refine ⟨v, stored, fun now _ all => ?_, entered⟩
  exact keeps.wait (all event mem_concat_self)

end Watch

section Step

variable {host : Host} {id : VaultId} {created : Nat} {later : History} {event : VaultEvent}

variable (keeps : KeepsTime id created later event.before) (after : created ≤ event.input.env.now)
  (ordered : ∀ earlier ∈ later, earlier.input.env.now ≤ event.input.env.now)
include keeps after ordered

theorem KeepsTime.other (same : event.after.timing id = event.before.timing id)
    (foreign : ¬ Countdown id event.input.call) :
    KeepsTime id created (later ++ [event]) event.after := by
  obtain ⟨v, stored, keeping, entered⟩ := keeps
  have keeping := keeping event.input.env.now after ordered
  have times : (event.after.vaults id).map (fun v => (v.lastCheckIn, v.checkInInterval)) =
      some (v.lastCheckIn, v.checkInInterval) := by
    rw [show (event.after.vaults id).map (fun v => (v.lastCheckIn, v.checkInInterval)) =
      (event.before.vaults id).map (fun v => (v.lastCheckIn, v.checkInInterval)) from
        congrArg Prod.fst same, stored, Option.map_some]
  have hibernation : event.after.checkIns.hibernation id = event.before.checkIns.hibernation id :=
    congrArg Prod.snd same
  obtain ⟨w, written, equal⟩ := Option.map_eq_some_iff.mp times
  obtain ⟨mark, interval⟩ := Prod.mk.inj equal
  have unsigned : ¬ event.input.call.checksIn id = true := by
    intro checks
    generalize event.input.call = call at checks foreign
    cases call with
    | checkIn =>
      obtain rfl := of_decide_eq_true checks
      exact foreign .checkIn
    | _ => cases checks
  have asleep : Asleep id (later ++ [event]) = Asleep id later := by
    refine asleep_other (fun caller duration called => ?_) fun caller called => ?_
    · rw [called] at foreign
      exact foreign .enter
    · rw [called] at foreign
      exact foreign .exit
  refine keepsTime_snoc written ?_ fun h member => ?_
  · rw [asleep, lastSign_snoc, if_neg unsigned, State.watch, hibernation, mark]
    exact keeping
  · rw [hibernation] at member
    have before := entered h member
    unfold Vault.deadline at before ⊢
    rw [mark, interval]
    exact before

variable (stepped : step host event.before event.input event.after)
include stepped

variable {caller : Address}

theorem KeepsTime.checkIn {passkeyHash : Hash} {nonce : Nat}
    (called : event.input.call = .checkIn id caller passkeyHash nonce)
    (paced : Paced id event.input.env event.before event.input.call) :
    KeepsTime id created (later ++ [event]) event.after := by
  have checks : event.input.call.checksIn id = true := by
    rw [called]
    exact decide_eq_true rfl
  have ran := stepped.2
  rw [called] at ran
  obtain ⟨same, v, w, found, written, now, interval⟩ := checkIn_timing event.input.env event.before id
    caller passkeyHash nonce _ _ ran
  obtain ⟨u, stored, keeping, entered⟩ := keeps
  cases found.symm.trans stored
  have keeping := keeping event.input.env.now after ordered
  have asleep : Asleep id (later ++ [event]) = Asleep id later := by
    refine asleep_other ?_ ?_ <;> rw [called]
    · exact fun _ _ => nofun
    · exact fun _ => nofun
  refine keepsTime_snoc written ?_ ?_
  · rw [asleep, lastSign_snoc, if_pos checks]
    cases hibernation : event.before.checkIns.hibernation id with
    | none =>
      rw [watch_awake hibernation] at keeping
      rw [watch_awake (by rw [same, hibernation]), now]
      exact keeping.restart le_rfl
    | some h =>
      -- the window has just been entered
      have started := paced.checkIns checks h hibernation
      rw [watch_asleep hibernation] at keeping
      rw [watch_asleep (by rw [same, hibernation]), now, started]
      exact keeping.restart_at_pause
  · intro h member
    rw [same] at member
    have started := paced.checkIns checks h member
    have before := entered h member
    rw [watch_asleep member] at keeping
    have marked : v.lastCheckIn ≤ h.startedAt := keeping.2.2.1
    unfold Vault.deadline at before ⊢
    omega

theorem KeepsTime.enter {duration : Nat}
    (called : event.input.call = .record (.enterHibernation id caller duration))
    (paced : Paced id event.input.env event.before event.input.call) :
    KeepsTime id created (later ++ [event]) event.after := by
  have ran := stepped.2
  rw [called] at ran
  obtain ⟨vaults, none, entry⟩ := enterHibernation_timing event.input.env event.before id caller
    duration _ _ ran
  obtain ⟨v, stored, keeping, -⟩ := keeps
  have keeping := keeping event.input.env.now after ordered
  rw [watch_awake none] at keeping
  have unsigned : ¬ event.input.call.checksIn id = true := by
    rw [called]
    exact nofun
  refine keepsTime_snoc (v := v) (by rw [vaults, stored]) ?_ fun h member => ?_
  · rw [lastSign_snoc, if_neg unsigned, watch_asleep entry]
    exact keeping.enter le_rfl fun second => asleep_enter called
  · cases entry.symm.trans member
    exact paced.entries caller duration called v stored

theorem KeepsTime.exit (called : event.input.call = .exitHibernation id caller)
    (time : event.input.env.now ≤ maxU64) :
    KeepsTime id created (later ++ [event]) event.after := by
  have ran := stepped.2
  rw [called] at ran
  obtain ⟨v, h, found, entry, written, none⟩ := exitHibernation_timing event.input.env event.before id
    caller _ _ ran
  obtain ⟨u, stored, keeping, -⟩ := keeps
  cases found.symm.trans stored
  have keeping := keeping event.input.env.now after ordered
  rw [watch_asleep entry] at keeping
  have marked : v.lastCheckIn ≤ h.startedAt := keeping.2.2.1
  have reached : h.startedAt ≤ event.input.env.now := keeping.2.1
  have unsigned : ¬ event.input.call.checksIn id = true := by
    rw [called]
    exact nofun
  -- the credit does not saturate
  have credit : saturatingAdd v.lastCheckIn
      (min (event.input.env.now - h.startedAt) h.durationSeconds) =
        v.lastCheckIn + min (event.input.env.now - h.startedAt) h.durationSeconds := by
    unfold saturatingAdd
    omega
  refine keepsTime_snoc written ?_ fun h member => ?_
  · rw [lastSign_snoc, if_neg unsigned, watch_awake none]
    show (⟨saturatingAdd v.lastCheckIn _, _⟩ : Stopwatch).Keeps _ _ _
    rw [credit]
    exact keeping.resume le_rfl fun second => asleep_exit called
  · cases none.symm.trans member

theorem KeepsTime.step (counts : CountsDown id event)
    (paced : Paced id event.input.env event.before event.input.call)
    (time : event.input.env.now ≤ maxU64) :
    KeepsTime id created (later ++ [event]) event.after := by
  by_cases countdown : Countdown id event.input.call
  · generalize called : event.input.call = call at countdown
    cases countdown with
    | checkIn => exact keeps.checkIn after ordered stepped called paced
    | enter => exact keeps.enter after ordered stepped called paced
    | exit => exact keeps.exit after ordered stepped called time
  · exact keeps.other after ordered (counts.resolve_left countdown) countdown

end Step

/-! ### Runs -/

theorem Chronological.snoc {event : VaultEvent}
    (whole : Chronological created (later ++ [event])) :
    Chronological created later ∧ created ≤ event.input.env.now ∧
      (∀ earlier ∈ later, earlier.input.env.now ≤ event.input.env.now) ∧
      event.input.env.now ≤ maxU64 := by
  have ordered := whole.ordered
  rw [map_append, ← cons_append, pairwise_append] at ordered
  obtain ⟨front, -, across⟩ := ordered
  have last : event.input.env.now ∈ [event].map (·.input.env.now) :=
    mem_map_of_mem (mem_singleton.mpr rfl)
  obtain ⟨earlier, now⟩ := forall_mem_concat.mp whole.bounded
  refine ⟨⟨front, earlier⟩, across created mem_cons_self _ last, fun earlier member => ?_, now⟩
  exact across _ (mem_cons_of_mem _ (mem_map_of_mem member)) _ last

theorem keepsTime_run {id : VaultId}
    (run : ContractRun host start later s) (initial : KeepsTime id created [] start)
    (chronological : Chronological created later) (counts : ∀ event ∈ later, CountsDown id event)
    (paced : ∀ event ∈ later, Paced id event.input.env event.before event.input.call) :
    KeepsTime id created later s := by
  refine run.history_invariant (fun later s => Chronological created later →
    (∀ event ∈ later, CountsDown id event) →
    (∀ event ∈ later, Paced id event.input.env event.before event.input.call) →
      KeepsTime id created later s) (fun _ _ _ => initial)
    (fun later u input t _ ih stepped chronological counts paced => ?_) chronological counts paced
  obtain ⟨front, after, ordered, time⟩ := chronological.snoc
  obtain ⟨before, counts⟩ := forall_mem_concat.mp counts
  obtain ⟨earlier, paced⟩ := forall_mem_concat.mp paced
  exact (ih front before earlier).step after ordered stepped counts paced time

theorem keepsTime_opened {env : Env} {t : State} (opened : Opened env s t)
    (fresh : s.checkIns.hibernation (s.vaultCount + 1) = none) :
    KeepsTime (s.vaultCount + 1) env.now [] t := by
  obtain ⟨same, w, written, now⟩ := opened
  have awake : t.checkIns.hibernation (s.vaultCount + 1) = none := by rw [same, fresh]
  refine ⟨w, written, fun later after _ => ?_, fun h member => ?_⟩
  · rw [watch_awake awake, now]
    -- nothing has been counted yet, and no window is open
    have start : (⟨env.now, none⟩ : Stopwatch).Keeps (Asleep (s.vaultCount + 1) []) env.now
        env.now := by
      refine ⟨le_rfl, le_rfl, ?_, fun second _ asleep => ?_⟩
      · exact unpaused_of_none fun x after before => absurd after (Nat.not_le_of_lt before)
      · obtain ⟨before, entry, rest, _, _, whole, -⟩ := asleep
        exact append_ne_nil_of_right_ne_nil before (cons_ne_nil entry rest) whole.symm
    exact start.wait after
  · cases awake.symm.trans member

/-- **Hibernation pauses the countdown and nothing more** in every run whose steps meet the
condition. -/
theorem countdownPauses_of_paced {host : Host} {xlmToken admin : Address}
    {ledger : Ledger Address Address} {earlier later : History} {creation : VaultEvent}
    {s : State}
    (run : ContractRun host (initialState xlmToken admin ledger) (earlier ++ creation :: later) s)
    (opens : creation.input.call.opens = true)
    (chronological : Chronological creation.input.env.now later)
    (counts : ∀ event ∈ later, CountsDown (creation.before.vaultCount + 1) event)
    (paced : ∀ event ∈ later, Paced (creation.before.vaultCount + 1) event.input.env event.before
      event.input.call) :
    CountdownPauses (creation.before.vaultCount + 1) creation.input.env.now later s := by
  have regular := initialState_regular xlmToken admin ledger
  obtain ⟨middle, before, rest⟩ := run.split earlier (creation :: later) rfl
  obtain ⟨rfl, stepped, after⟩ := rest.uncons
  have absent : creation.before.vaults (creation.before.vaultCount + 1) = none :=
    (run_regular before regular).counted _ (Nat.lt_succ_self _)
  have fresh := run_hibernation before regular (fun _ => rfl) _ absent
  have opened := exec_opened creation.input.env creation.before opens _ _ stepped.2
  have keeps := keepsTime_run after (keepsTime_opened opened fresh) chronological counts paced
  exact keeps.expired_iff

def shortHibernation : Scenario :=
  [(1, ⟨3⟩, .createVault ⟨3⟩ ⟨4⟩ 100 none),
    (50, ⟨3⟩, .record (.enterHibernation 1 ⟨3⟩ 60)),
    (60, ⟨3⟩, .exitHibernation 1 ⟨3⟩),
    (70, ⟨3⟩, .checkIn 1 ⟨3⟩ [] 0)]

/-- Its countdown is paused as it should be. -/
theorem countdownPauses_shortHibernation :
    (played shortHibernation).1.length = 4 ∧
      CountdownPauses 1 1 (played shortHibernation).1.tail (played shortHibernation).2 := by
  have run : PlainRun ([] ++ _ :: _) _ := plainInputs_run shortHibernation
  refine ⟨rfl, countdownPauses_of_paced run rfl ⟨by decide +kernel, by decide +kernel⟩ ?_ ?_⟩
  · rintro event (_ | ⟨_, _ | ⟨_, _ | ⟨_, none⟩⟩⟩)
    · exact .inl .enter
    · exact .inl .exit
    · exact .inl .checkIn
    · cases none
  · rintro event (_ | ⟨_, _ | ⟨_, _ | ⟨_, none⟩⟩⟩)
    · refine ⟨nofun, fun _ _ _ v found => ?_⟩
      cases found
      decide +kernel
    · exact ⟨nofun, nofun⟩
    · exact ⟨nofun, nofun⟩
    · cases none

def lateCheckIn : Scenario :=
  [(1, ⟨3⟩, .createVault ⟨3⟩ ⟨4⟩ 100 none),
    (50, ⟨3⟩, .record (.enterHibernation 1 ⟨3⟩ 60)),
    (111, ⟨3⟩, .checkIn 1 ⟨3⟩ [] 0)]

def lateEntry : Scenario :=
  [(1, ⟨3⟩, .createVault ⟨3⟩ ⟨4⟩ 100 none), (150, ⟨3⟩, .record (.enterHibernation 1 ⟨3⟩ 60))]

/-- The check-in is credited with the hibernation before it: a hundred waking seconds later the
vault is not expired. And an entry after the deadline takes the expiry back. -/
theorem lateCheckIn_not_countdownPauses :
    PlainRun (played lateCheckIn).1 (played lateCheckIn).2 ∧
      ((played lateCheckIn).2.vaults 1).map
        (fun v => (v.lastCheckIn, v.checkInInterval, v.status)) = some (111, 100, .locked) ∧
      (isExpired (plainEnv 211 []) 1 (played lateCheckIn).2).toOption.map (·.1) = some false ∧
      ¬ CountdownPauses 1 1 (played lateCheckIn).1.tail (played lateCheckIn).2 ∧
    PlainRun (played lateEntry).1 (played lateEntry).2 ∧
      (isExpired (plainEnv 149 []) 1 (played lateEntry.dropLast).2).toOption.map (·.1) = some true ∧
      (isExpired (plainEnv 151 []) 1 (played lateEntry).2).toOption.map (·.1) = some false ∧
      ¬ CountdownPauses 1 1 (played lateEntry).1.tail (played lateEntry).2 := by
  refine ⟨plainInputs_run lateCheckIn, rfl, rfl, fun pauses => ?_, plainInputs_run lateEntry, rfl, rfl,
    fun pauses => ?_⟩
  · -- the window has run out before the check-in
    have counted : unpaused (Asleep 1 (played lateCheckIn).1.tail) 111 211 = 211 - 111 := by
      refine unpaused_of_none fun second after _ asleep => ?_
      obtain ⟨before, entry, rest, caller, duration, whole, called, -, inside, -⟩ := asleep
      have member : entry ∈ (played lateCheckIn).1.tail := whole ▸ mem_append_cons_self
      rcases member with _ | ⟨_, _ | ⟨_, none⟩⟩
      · cases called
        exact absurd (inside.trans_le (show 110 ≤ 111 by decide)) (Nat.not_lt_of_le after)
      · cases called
      · cases none
    cases (pauses (plainEnv 211 []) _ rfl (by decide) (by decide +kernel) (by decide)).mpr counted.ge
  · -- the interval is over before the window opens
    have before : unpaused (Asleep 1 (played lateEntry).1.tail) 1 150 = 150 - 1 := by
      refine unpaused_of_none fun second _ early asleep => ?_
      obtain ⟨before, entry, rest, caller, duration, whole, -, reached, -⟩ := asleep
      have member : entry ∈ (played lateEntry).1.tail := whole ▸ mem_append_cons_self
      rcases member with _ | ⟨_, none⟩
      · exact absurd early (Nat.not_lt_of_le reached)
      · cases none
    have counted : 100 ≤ unpaused (Asleep 1 (played lateEntry).1.tail) 1 151 := by
      rw [unpaused_split (show 1 ≤ 150 by decide) (by decide), before]
      omega
    cases (pauses (plainEnv 151 []) _ rfl (by decide) (by decide +kernel) (by decide)).mpr counted

end EthosContracts.TtlVault
