/-
**Two-factor verification of the backend** (`two_factor.rs`, with the `two_factor_config` table).

The handler of a verification reads the configuration of the vault, checks the code, and writes the
configuration back. A backup code is removed from the stored list by an action of its own in
between.

The TOTP check and the hash of the codes are parameters (`Checks`).
-/

import Mathlib.Data.List.Count
import Mathlib.Data.List.Nodup
import Mathlib.Logic.Function.Basic
import EthosContracts.Lib.Script

namespace EthosContracts.Backend.TwoFactor

open Lib Lib.Script Function List

inductive TwoFactorMethod
  | totp
  | sms
  | email
deriving DecidableEq

/-- The configuration of a vault, without the vault's name, which is the key of its row. -/
structure TwoFactorConfig where
  method : TwoFactorMethod
  enabled : Bool
  secret : Option String
  phone : Option String
  email : Option String
  createdAt : Nat
  verifiedAt : Option Nat
  /-- The hashes of the unused backup codes. -/
  backupCodes : List String
deriving DecidableEq

structure PendingOtp where
  code : String
  expiresAt : Nat
deriving DecidableEq

inductive AppError
  | notFound
  | invalidInput (message : String)
deriving DecidableEq

/-- The configurations, the codes that were sent, and the verified sessions. -/
structure Stores where
  configs : String → Option TwoFactorConfig
  pendingOtps : String → Option (List PendingOtp)
  sessionVerified : String → Bool

structure Checks where
  totp : (now : Nat) → (secret code : String) → Bool
  hash : String → String

/-! ### The actions -/

/-- The accesses of the handler to the stores. -/
inductive Action
  | get2faConfig (id : String)
  | upsert2faConfig (id : String) (config : TwoFactorConfig)
  | verifyTotpCode (secret code : String)
  | verifyAndConsumeBackupCode (id code : String)
  | verifyPendingOtp (id code : String)
  | utcNow
  | markVerified (id : String)
deriving DecidableEq

abbrev Action.Answer : Action → Type
  | .get2faConfig _ => Option TwoFactorConfig
  | .upsert2faConfig _ _ => Unit
  | .verifyTotpCode _ _ => Bool
  | .verifyAndConsumeBackupCode _ _ => Bool
  | .verifyPendingOtp _ _ => Bool
  | .utcNow => Nat
  | .markVerified _ => Unit

def upsert2faConfig (id : String) (config : TwoFactorConfig) (stores : Stores) : Stores :=
  { stores with configs := update stores.configs id (some config) }

/-- Remove a code from the stored list, if it stands there; one step under a lock. -/
def verifyAndConsumeBackupCode (checks : Checks) (id code : String) (stores : Stores) :
    Bool × Stores :=
  match stores.configs id with
  | none => (false, stores)
  | some config =>
    let hashed := checks.hash code
    if hashed ∈ config.backupCodes then
      (true, upsert2faConfig id
        { config with backupCodes := config.backupCodes.erase hashed } stores)
    else (false, stores)

/-- Drop the expired codes, then remove the last one that matches. -/
def verifyPendingOtp (now : Nat) (id code : String) (stores : Stores) : Bool × Stores :=
  match stores.pendingOtps id with
  | none => (false, stores)
  | some codes =>
    let live := codes.filter (now < ·.expiresAt)
    let matchedPos := live.zipIdx.foldl (fun pos entry =>
      if entry.1.code = code then entry.2 else pos) live.length
    let kept := if matchedPos < live.length then live.eraseIdx matchedPos else live
    (matchedPos < live.length,
      { stores with pendingOtps := update stores.pendingOtps id (some kept) })

/-- What an action answers at a time, and what it leaves. -/
def execute (checks : Checks) (action : Action) (now : Nat) (stores : Stores) :
    action.Answer × Stores :=
  match action with
  | .get2faConfig id => (stores.configs id, stores)
  | .upsert2faConfig id a => ((), upsert2faConfig id a stores)
  | .verifyTotpCode secret code => (checks.totp now secret code, stores)
  | .verifyAndConsumeBackupCode id code =>
    verifyAndConsumeBackupCode checks id code stores
  | .verifyPendingOtp id code => verifyPendingOtp now id code stores
  | .utcNow => (now, stores)
  | .markVerified id =>
    ((), { stores with sessionVerified := update stores.sessionVerified id true })

/-! ### The handler -/

abbrev Handler : Type → Type := Script Action Action.Answer AppError

def access (action : Action) : Handler action.Answer := perform action

/-- Whether the code is valid, and whether it was a backup code. -/
def checkOtp (id otp : String) (config : TwoFactorConfig) : Handler (Bool × Bool) :=
  match config.method with
  | .totp => do
    let secret ← expect config.secret (.invalidInput "TOTP secret not found")
    if ← access (.verifyTotpCode secret otp) then
      pure (true, false)
    else if ← access (.verifyAndConsumeBackupCode id otp) then
      pure (true, true)
    else
      pure (false, false)
  | .sms | .email => do
    let valid ← access (.verifyPendingOtp id otp)
    pure (valid, false)

/-- The handler, with each access to the stores as one action. -/
def verify2fa (id otp : String) : Handler Unit := do
  let found ← access (.get2faConfig id)
  let config ← expect found .notFound
  let (valid, usedBackupCode) ← checkOtp id otp config
  ensure valid (.invalidInput "Invalid or expired OTP")
  -- after a backup code, the configuration is read again
  let base ← if usedBackupCode then do
      let stored ← access (.get2faConfig id)
      pure (stored.getD config)
    else pure config
  let now ← access .utcNow
  access (.upsert2faConfig id { base with enabled := true, verifiedAt := some now })
  access (.markVerified id)

/-- Requests for a vault with a code, their actions interleaved in any way; an action takes the time
from its input. -/
def requests (checks : Checks) (start : Stores) (inputs : List (PoolInput Nat (String × String))) :
    Pool Stores Action Action.Answer AppError Unit :=
  interleave (execute checks) (fun request => verify2fa request.1 request.2) start inputs

/-! ### Codes that work once -/

abbrev Step : Type := Event Stores (Nat × Action)

section Codes

variable (checks : Checks) (id : String)

def Stores.codes (stores : Stores) : List String :=
  ((stores.configs id).map (·.backupCodes)).getD []

/-- The backup code of the vault that a step accepts, by its hash. -/
def accepted (step : Step) : Option String :=
  match step.input.2 with
  | .verifyAndConsumeBackupCode other code =>
    if other = id ∧ checks.hash code ∈ step.before.codes id then some (checks.hash code)
    else none
  | _ => none

def allAccepted (journal : List Step) : List String := journal.filterMap (accepted checks id)

/-- **A backup code works once.** -/
structure WorksOnce (journal : List Step) : Prop where
  once : (allAccepted checks id journal).Nodup
  absent : ∀ before step after, journal = before ++ step :: after →
    ∀ code ∈ allAccepted checks id (before ++ [step]), code ∉ step.after.codes id

/-- What a request last read of the vault, and what has happened since. -/
structure Reading where
  codes : List String
  since : List Step

def readBy (thread : Nat) (step : Step) : Option (List String) :=
  match step.input with
  | (actor, .get2faConfig other) =>
    if actor = thread ∧ other = id then (step.before.configs id).map (·.backupCodes) else none
  | _ => none

def readNext (thread : Nat) (reading : Option Reading) (step : Step) : Option Reading :=
  match readBy id thread step with
  | some codes => some ⟨codes, []⟩
  | none => reading.map fun last => ⟨last.codes, last.since ++ [step]⟩

def lastRead (thread : Nat) (journal : List Step) : Option Reading :=
  journal.foldl (readNext id thread) none

/-- **A careful step**: an accepted code stood in the list once, and no list is written back of
which a code was accepted since it was read. -/
structure Careful (before : List Step) (step : Step) : Prop where
  single : ∀ code ∈ accepted checks id step, (step.before.codes id).count code = 1
  current : ∀ config, step.input.2 = .upsert2faConfig id config →
    ∀ reading ∈ lastRead id step.input.1 before,
      ∀ code ∈ allAccepted checks id reading.since, code ∉ reading.codes

end Codes

/-! ### The handler writes what it read -/

section Carries

variable (id : String)

def told : (action : Action) → action.Answer → Option (List String)
  | .get2faConfig other, config => if other = id then config.map (·.backupCodes) else none
  | _, _ => none

/-- **The script writes back the list that it read last.** -/
def Carries {α : Type} : Option (List String) → Handler α → Prop
  | _, .done _ => True
  | _, .fail _ => True
  | read, .act action next =>
    (∀ config, action = .upsert2faConfig id config → read = some config.backupCodes) ∧
      ∀ answer, Carries ((told id action answer).or read) (next answer)

variable {id}

theorem checkOtp_carries {read : Option (List String)} {other otp : String} {config : TwoFactorConfig}
    {rest : Bool × Bool → Handler Unit} (direct : ∀ valid, Carries id read (rest (valid, false)))
    (backup : Carries id read (rest (true, true))) :
    Carries id read (checkOtp other otp config >>= rest) := by
  unfold checkOtp
  cases config.method with
  | totp =>
    cases config.secret with
    | none => trivial
    | some secret =>
      refine ⟨nofun, fun valid => ?_⟩
      cases valid with
      | true => exact direct true
      | false =>
        refine ⟨nofun, fun consumed => ?_⟩
        cases consumed with
        | true => exact backup
        | false => exact direct false
  | sms => exact ⟨nofun, direct⟩
  | email => exact ⟨nofun, direct⟩

theorem verify2fa_carries (other otp : String) : Carries id none (verify2fa other otp) := by
  -- the last three actions, from a configuration that was read last
  have written : ∀ (base : TwoFactorConfig) read, (other = id → read = some base.backupCodes) →
      Carries id read (do
        let now ← access .utcNow
        access (.upsert2faConfig other { base with enabled := true, verifiedAt := some now })
        access (.markVerified other)) := by
    intro base read same
    refine ⟨nofun, fun now => ⟨?_, fun _ => ⟨nofun, fun _ => trivial⟩⟩⟩
    intro stored written
    cases written
    exact same rfl
  have reread : ∀ (config : TwoFactorConfig) read, other = id →
      (told id (.get2faConfig other) (some config)).or read = some config.backupCodes := by
    intro config read same
    rw [told, if_pos same]
    rfl
  refine ⟨nofun, fun found => ?_⟩
  cases found with
  | none => trivial
  | some config =>
    refine checkOtp_carries (fun valid => ?_) ⟨nofun, fun stored => ?_⟩
    · cases valid with
      | false => trivial
      | true => exact written config _ (reread config none)
    · cases stored with
      | none =>
        refine written config _ fun same => ?_
        rw [told, if_pos same]
        exact reread config none same
      | some current => exact written current _ (reread current _)

end Carries

/-! ### What a step does to the codes -/

section Steps

variable {checks : Checks} {id : String} {journal : List Step} {step : Step}

/-- **What a step may do to the stored list of a vault.** -/
inductive CodeStep (checks : Checks) (id : String) (step : Step) : Prop
  | idle (none : accepted checks id step = none)
      (reads : ∀ config, step.input.2 ≠ .upsert2faConfig id config)
      (kept : step.after.codes id = step.before.codes id)
  | accepts {code} (accepts : accepted checks id step = some code)
      (reads : ∀ config, step.input.2 ≠ .upsert2faConfig id config)
      (stored : code ∈ step.before.codes id)
      (removed : step.after.codes id = (step.before.codes id).erase code)
  | writes {config} (none : accepted checks id step = none)
      (writes : step.input.2 = .upsert2faConfig id config)
      (written : step.after.codes id = config.backupCodes)

theorem codes_upsert (other : String) (config : TwoFactorConfig) (stores : Stores) :
    (upsert2faConfig other config stores).codes id =
      if other = id then config.backupCodes else stores.codes id := by
  show ((update stores.configs other (some config) id).map (·.backupCodes)).getD [] = _
  by_cases same : other = id
  · subst same
    rw [if_pos rfl, update_self]
    rfl
  · rw [if_neg same, update_of_ne (Ne.symm same)]
    rfl

theorem codes_verifyAndConsume (other code : String) (stores : Stores) :
    (verifyAndConsumeBackupCode checks other code stores).2.codes id =
      if other = id ∧ checks.hash code ∈ stores.codes id then
        (stores.codes id).erase (checks.hash code)
      else stores.codes id := by
  unfold verifyAndConsumeBackupCode
  cases found : stores.configs other with
  | none =>
    refine (if_neg ?_).symm
    rintro ⟨rfl, stored⟩
    rw [Stores.codes, found] at stored
    cases stored
  | some config =>
    have here : other = id → stores.codes id = config.backupCodes := by
      rintro rfl
      rw [Stores.codes, found]
      rfl
    dsimp only
    by_cases stored : checks.hash code ∈ config.backupCodes
    · rw [if_pos stored, codes_upsert]
      by_cases same : other = id
      · rw [if_pos same, here same, if_pos ⟨same, stored⟩]
      · rw [if_neg same, if_neg fun taken => same taken.1]
    · rw [if_neg stored]
      refine (if_neg ?_).symm
      rintro ⟨same, member⟩
      rw [here same] at member
      exact stored member

theorem execute_codeStep (action : Action) (thread now : Nat) (stores : Stores) :
    CodeStep checks id ⟨stores, (thread, action), (execute checks action now stores).2⟩ := by
  cases action with
  | upsert2faConfig other config =>
    by_cases same : other = id
    · subst same
      exact .writes rfl rfl ((codes_upsert other config stores).trans (if_pos rfl))
    · refine .idle rfl (fun other written => ?_)
        ((codes_upsert other config stores).trans (if_neg same))
      exact same (Action.upsert2faConfig.inj written).1
  | verifyAndConsumeBackupCode other code =>
    by_cases taken : other = id ∧ checks.hash code ∈ stores.codes id
    · exact .accepts (if_pos taken) nofun taken.2
        ((codes_verifyAndConsume other code stores).trans (if_pos taken))
    · exact .idle (if_neg taken) nofun
        ((codes_verifyAndConsume other code stores).trans (if_neg taken))
  | verifyPendingOtp other code =>
    refine .idle rfl nofun ?_
    show (verifyPendingOtp now other code stores).2.codes id = _
    unfold verifyPendingOtp
    cases stores.pendingOtps other <;> rfl
  | _ => exact .idle rfl nofun rfl

theorem allAccepted_concat : allAccepted checks id (journal ++ [step]) =
    allAccepted checks id journal ++ (accepted checks id step).toList := by
  rw [allAccepted, filterMap_append, allAccepted]
  cases here : accepted checks id step <;> simp [here]

theorem mem_allAccepted_concat {code : String} :
    code ∈ allAccepted checks id (journal ++ [step]) ↔
      code ∈ allAccepted checks id journal ∨ accepted checks id step = some code := by
  rw [allAccepted_concat, mem_append, Option.mem_toList]

theorem worksOnce_concat : WorksOnce checks id (journal ++ [step]) ↔
    WorksOnce checks id journal ∧
      (∀ code ∈ accepted checks id step, code ∉ allAccepted checks id journal) ∧
      ∀ code ∈ allAccepted checks id (journal ++ [step]), code ∉ step.after.codes id := by
  have nodup : (allAccepted checks id (journal ++ [step])).Nodup ↔
      (allAccepted checks id journal).Nodup ∧
        ∀ code ∈ accepted checks id step, code ∉ allAccepted checks id journal := by
    rw [allAccepted_concat]
    cases accepted checks id step with
    | none => simp
    | some code => simp [nodup_append_comm, and_comm]
  have split := forall_split_concat (fun before step =>
    ∀ code ∈ allAccepted checks id (before ++ [step]), code ∉ step.after.codes id)
    journal step
  constructor
  · rintro ⟨once, absent⟩
    obtain ⟨earlier, last⟩ := split.mp absent
    exact ⟨⟨(nodup.mp once).1, earlier⟩, (nodup.mp once).2, last⟩
  · rintro ⟨⟨once, absent⟩, new, last⟩
    exact ⟨nodup.mpr ⟨once, new⟩, split.mpr ⟨absent, last⟩⟩

/-! #### Readings -/

theorem lastRead_concat (thread : Nat) : lastRead id thread (journal ++ [step]) =
    readNext id thread (lastRead id thread journal) step := by
  rw [lastRead, foldl_append]
  rfl

variable (checks) in
theorem readNext_cases {thread : Nat} {last : Option Reading} {reading : Reading}
    (read : readNext id thread last step = some reading) :
    (reading = ⟨step.before.codes id, []⟩ ∧ accepted checks id step = none) ∨
      ∃ old, last = some old ∧ reading = ⟨old.codes, old.since ++ [step]⟩ := by
  unfold readNext at read
  split at read
  · rename_i codes here
    obtain rfl := Option.some.inj read
    unfold readBy at here
    split at here
    · rename_i input
      split at here
      · left
        rw [Stores.codes, here, accepted, input]
        exact ⟨rfl, rfl⟩
      · cases here
    · cases here
  · obtain ⟨old, here, rfl⟩ := Option.map_eq_some_iff.mp read
    exact .inr ⟨old, here, rfl⟩

theorem readNext_codes (thread : Nat) (last : Option Reading) :
    (readNext id thread last step).map (·.codes) =
      (readBy id thread step).or (last.map (·.codes)) := by
  unfold readNext
  cases readBy id thread step with
  | none => rw [Option.none_or, Option.map_map]; rfl
  | some codes => rfl

theorem readBy_execute (action : Action) (actor thread now : Nat) (stores : Stores) :
    readBy id thread ⟨stores, (actor, action), (execute checks action now stores).2⟩ =
      if actor = thread then told id action (execute checks action now stores).1 else none := by
  cases action with
  | get2faConfig other =>
    by_cases own : actor = thread <;> by_cases same : other = id <;>
      simp [readBy, told, execute, own, same]
  | _ => exact (ite_self _).symm

theorem lastRead_eq_none {thread : Nat} (other : ∀ step ∈ journal, step.input.1 ≠ thread) :
    lastRead id thread journal = none := by
  induction journal using List.reverseRecOn with
  | nil => rfl
  | append_singleton journal step ih =>
    have unread : readBy id thread step = none := by
      unfold readBy
      split
      · rename_i actor vault input
        have actor_ne := other step mem_concat_self
        rw [input] at actor_ne
        exact if_neg fun both => actor_ne both.1
      · rfl
    rw [lastRead_concat, ih (forall_mem_concat.mp other).1, readNext, unread]
    rfl

/-! #### While the codes work once -/

/-- **What is known of the accepted codes**: none is stored, and where one stands in the list that a
request read last, it was accepted since. -/
structure Gone (checks : Checks) (id : String) (journal : List Step) (stores : Stores) : Prop where
  stored : ∀ code ∈ allAccepted checks id journal, code ∉ stores.codes id
  read : ∀ thread, ∀ reading ∈ lastRead id thread journal, ∀ code ∈ reading.codes,
    (code ∈ allAccepted checks id journal ↔ code ∈ allAccepted checks id reading.since)

variable (gone : Gone checks id journal step.before)
include gone

theorem Gone.concat
    (absent : ∀ code ∈ allAccepted checks id (journal ++ [step]), code ∉ step.after.codes id) :
    Gone checks id (journal ++ [step]) step.after := by
  refine ⟨absent, fun thread reading last code listed => ?_⟩
  rw [Option.mem_def, lastRead_concat] at last
  rw [mem_allAccepted_concat]
  obtain ⟨rfl, quiet⟩ | ⟨old, before, rfl⟩ := readNext_cases checks last
  · have fresh : code ∉ allAccepted checks id journal := fun taken => gone.stored code taken listed
    rw [quiet]
    exact iff_of_false (by simp [fresh]) not_mem_nil
  · rw [mem_allAccepted_concat, gone.read thread old before code listed]

theorem Gone.careful_iff (codeStep : CodeStep checks id step)
    (carried : ∀ config, step.input.2 = .upsert2faConfig id config →
      (lastRead id step.input.1 journal).map (·.codes) = some config.backupCodes) :
    ((∀ code ∈ accepted checks id step, code ∉ allAccepted checks id journal) ∧
      ∀ code ∈ allAccepted checks id (journal ++ [step]), code ∉ step.after.codes id) ↔
    Careful checks id journal step := by
  simp only [mem_allAccepted_concat]
  cases codeStep with
  | idle none reads kept =>
    rw [kept]
    refine iff_of_true ⟨?_, ?_⟩ ⟨?_, ?_⟩
    · simp [none]
    · simpa [none] using gone.stored
    · simp [none]
    · exact fun config written => absurd written (reads config)
  | @accepts code accepts reads stored removed =>
    have fresh : code ∉ allAccepted checks id journal :=
      fun taken => gone.stored code taken stored
    -- the code is gone after the step if it stood in the list once
    have last : code ∉ (step.before.codes id).erase code ↔
        (step.before.codes id).count code = 1 := by
      have some := count_pos_iff.mpr stored
      rw [← count_eq_zero, count_erase_self]
      omega
    rw [removed]
    constructor
    · intro ⟨_, absent⟩
      refine ⟨fun other taken => ?_, fun config written => absurd written (reads config)⟩
      obtain rfl : code = other := by simpa [accepts] using taken
      exact last.mp (absent code (.inr accepts))
    · intro careful
      refine ⟨fun other taken => ?_, fun other taken => ?_⟩
      · obtain rfl : code = other := by simpa [accepts] using taken
        exact fresh
      · obtain before | here := taken
        · exact fun left => gone.stored other before (mem_of_mem_erase left)
        · obtain rfl : code = other := by simpa [accepts] using here
          exact last.mpr (careful.single code accepts)
  | @writes config none writes written =>
    obtain ⟨reading, last, same⟩ := Option.map_eq_some_iff.mp (carried config writes)
    have read := gone.read _ reading last
    rw [written, ← same]
    constructor
    · intro ⟨_, absent⟩
      refine ⟨by simp [none], fun _ _ other there code since listed => ?_⟩
      obtain rfl : reading = other := Option.mem_unique last there
      exact absent code (.inl ((read code listed).mpr since)) listed
    · intro careful
      refine ⟨by simp [none], fun code taken listed => ?_⟩
      rw [none, or_iff_left (by simp)] at taken
      exact careful.current config writes reading last code ((read code listed).mp taken) listed

end Steps

section Interleavings

variable {checks : Checks} {id : String}

/-- What holds of the requests after every action. -/
structure Consistent (checks : Checks) (id : String)
    (pool : Pool Stores Action Action.Answer AppError Unit) : Prop where
  actors : ∀ step ∈ pool.journal, step.input.1 < pool.threads.length
  carries : ∀ thread script, pool.threads[thread]? = some script →
    Carries id ((lastRead id thread pool.journal).map (·.codes)) script
  gone : WorksOnce checks id pool.journal → Gone checks id pool.journal pool.shared
  worksOnce : WorksOnce checks id pool.journal ↔
    ∀ before step after, pool.journal = before ++ step :: after → Careful checks id before step

theorem consistent_start (start : Stores) : Consistent checks id ⟨⟨[], start⟩, []⟩ where
  actors _ member := absurd member not_mem_nil
  carries _ _ here := by cases here
  gone _ := ⟨fun _ taken => absurd taken not_mem_nil, fun _ _ last => by cases last⟩
  worksOnce := iff_of_true ⟨nodup_nil, fun _ _ _ split => by simp at split⟩
    fun _ _ _ split => by simp at split

variable {pool : Pool Stores Action Action.Answer AppError Unit}

theorem Consistent.spawn (consistent : Consistent checks id pool) (request : String × String) :
    Consistent checks id
      { pool with threads := pool.threads ++ [verify2fa request.1 request.2] } where
  actors step member := by
    rw [length_append]
    exact Nat.lt_add_right _ (consistent.actors step member)
  carries thread script here := by
    by_cases old : thread < pool.threads.length
    · rw [List.getElem?_append_left old] at here
      exact consistent.carries thread script here
    · rw [List.getElem?_append_right (Nat.le_of_not_lt old)] at here
      obtain rfl := mem_singleton.mp (mem_of_getElem? here)
      have idle : ∀ step ∈ pool.journal, step.input.1 ≠ thread := by
        intro step member same
        rw [← same] at old
        exact old (consistent.actors step member)
      rw [lastRead_eq_none idle]
      exact verify2fa_carries request.1 request.2
  gone := consistent.gone
  worksOnce := consistent.worksOnce

theorem Consistent.acted {thread now : Nat} {action : Action} {next : action.Answer → Handler Unit}
    (consistent : Consistent checks id pool)
    (here : pool.threads[thread]? = some (.act action next)) :
    Consistent checks id (pool.acted (execute checks) thread action next now) := by
  obtain ⟨writes, goesOn⟩ := consistent.carries thread _ here
  have careful (works : WorksOnce checks id pool.journal) :=
    (consistent.gone works).careful_iff (execute_codeStep action thread now pool.shared) writes
  refine ⟨fun step member => ?_, fun other script there => ?_, fun works => ?_, ?_⟩
  · show step.input.1 < (pool.threads.set _ _).length
    rw [length_set]
    obtain old | rfl := mem_append.mp member |>.imp_right mem_singleton.mp
    · exact consistent.actors step old
    · exact (List.getElem?_eq_some_iff.mp here).1
  · show Carries id ((lastRead id other (_ ++ [_])).map (·.codes)) script
    rw [lastRead_concat, readNext_codes, readBy_execute]
    by_cases own : thread = other
    · subst own
      rw [if_pos rfl]
      obtain rfl : next _ = script := by
        simpa [Pool.acted, (List.getElem?_eq_some_iff.mp here).1] using there
      exact goesOn _
    · rw [if_neg own, Option.none_or]
      refine consistent.carries other script ?_
      rwa [Pool.acted, List.getElem?_set_ne own] at there
  · obtain ⟨before, _, absent⟩ := worksOnce_concat.mp works
    exact (consistent.gone before).concat absent
  · refine worksOnce_concat.trans (Iff.trans ?_ (forall_split_concat (Careful checks id) _ _).symm)
    rw [consistent.worksOnce]
    exact and_congr_right fun all => careful (consistent.worksOnce.mpr all)

/-- **The backup codes work once in an interleaving exactly if its steps are careful.** -/
theorem worksOnce_iff (checks : Checks) (id : String) (start : Stores)
    (inputs : List (PoolInput Nat (String × String))) :
    WorksOnce checks id (requests checks start inputs).journal ↔
      ∀ before step after, (requests checks start inputs).journal = before ++ step :: after →
        Careful checks id before step := by
  suffices consistent : Consistent checks id (requests checks start inputs) from
    consistent.worksOnce
  refine interleave_induction (consistent_start start) ?_ ?_ inputs
  · exact fun pool request consistent => consistent.spawn request
  · exact fun pool thread action next now consistent here => consistent.acted here

/-- A request with a TOTP code reads the list; a second request has its backup code accepted and
removed; the first one writes its list back; a third request has the same code accepted. -/
theorem stale_list_restores_code :
    let checks : Checks := ⟨fun _ _ code => code == "492039", fun code => code⟩
    let config : TwoFactorConfig := ⟨.totp, true, some "secret", none, none, 0, none, ["1111111111"]⟩
    let start : Stores := ⟨update (fun _ => none) "vault" (some config), fun _ => none,
      fun _ => false⟩
    let inputs : List (PoolInput Nat (String × String)) :=
      [.spawn ("vault", "492039"), .spawn ("vault", "1111111111"), .spawn ("vault", "1111111111"),
        .advance 0 1] ++ .replicate 7 (.advance 1 2) ++ .replicate 4 (.advance 0 3) ++
        .replicate 3 (.advance 2 4)
    allAccepted checks "vault" (requests checks start inputs).journal = ["1111111111", "1111111111"] ∧
      ¬ WorksOnce checks "vault" (requests checks start inputs).journal := by
  intro checks config start inputs
  have twice : allAccepted checks "vault" (requests checks start inputs).journal =
      ["1111111111", "1111111111"] := by decide +kernel
  refine ⟨twice, fun works => ?_⟩
  have once := works.once
  rw [twice] at once
  simp at once

end Interleavings

end EthosContracts.Backend.TwoFactor
