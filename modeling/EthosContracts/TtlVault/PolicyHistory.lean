/-
**The history of compliance policies and the rules that were enforced.**

The setters change the live rules and record them as a version in force from now on. A published
policy is recorded with its date and applied by a later `sync_compliance_policy`, or by nobody: from
its date to then the history names rules that the checks do not use.
-/

import EthosContracts.Lib.DatedLog
import EthosContracts.TtlVault.Transition

namespace EthosContracts.TtlVault

open Lib List

/-! ### Rules and versions -/

/-- The rules of a policy, and of the live configuration. -/
structure Rules where
  kycHighValueThreshold : Int
  allowlistEnforced : Bool
  reportingThresholds : Option ThresholdConfig

def Policy.rules (policy : Policy) : Rules :=
  ⟨policy.kycHighValueThreshold, policy.allowlistEnforced, policy.reportingThresholds⟩

def State.liveRules (s : State) : Rules :=
  ⟨s.compliance.kycHighValueThreshold, s.compliance.allowlistEnforced, s.compliance.thresholdConfig⟩

theorem activePolicy_eq (timestamp : Nat) (policies : List Policy) : ∀ best,
    activePolicy timestamp policies best = inForce Policy.effectiveFrom timestamp policies best := by
  induction policies with
  | nil => exact fun best => rfl
  | cons policy rest ih =>
    intro best
    rw [activePolicy, inForce, ih, ih]

/-- The recorded versions, the number of the applied one and the live rules. -/
structure PolicyBook where
  policies : List Policy
  applied : Nat
  live : Rules

def State.policyBook (s : State) : PolicyBook :=
  ⟨s.compliance.policies, s.compliance.appliedPolicy, s.liveRules⟩

def PolicyBook.record (b : PolicyBook) (effectiveFrom : Nat) (rules : Rules) : PolicyBook :=
  { b with policies := b.policies ++ [⟨b.policies.length + 1, effectiveFrom,
      rules.kycHighValueThreshold, rules.allowlistEnforced, rules.reportingThresholds⟩] }

def PolicyBook.sync (b : PolicyBook) (now : Nat) : PolicyBook :=
  match activePolicy now b.policies none with
  | none => b
  | some active =>
    if active.version = b.applied then b
    else { b with applied := active.version, live := active.rules }

/-- **The steps of a policy book**, with the date of the recorded version. -/
inductive PolicyBook.Step (now : Nat) : Option Nat → PolicyBook → PolicyBook → Prop
  | idle {b} : Step now none b b
  | change {b} (rules) : Step now (some now) b
      { b.record now rules with applied := b.policies.length + 1, live := rules }
  | publish {b} (effectiveFrom rules) :
      Step now (some effectiveFrom) b ((b.record effectiveFrom rules).sync now)
  | sync {b} : Step now none b (b.sync now)

/-! ### The applied version describes the live rules -/

/-- Versions are numbered from 1, and the applied one has the live rules. -/
structure PolicyBook.Consistent (b : PolicyBook) : Prop where
  numbered : ∀ i policy, b.policies[i]? = some policy → policy.version = i + 1
  known : b.applied ≤ b.policies.length
  described : ∀ policy ∈ b.policies, policy.version = b.applied → policy.rules = b.live

section Book

variable {b c : PolicyBook} {now : Nat} {date : Option Nat}

theorem PolicyBook.Consistent.version_le (consistent : b.Consistent) {policy : Policy}
    (member : policy ∈ b.policies) : policy.version ≤ b.policies.length := by
  obtain ⟨i, found⟩ := mem_iff_getElem?.mp member
  have bound : i < b.policies.length := (List.getElem?_eq_some_iff.mp found).1
  rw [consistent.numbered i policy found]
  omega

theorem PolicyBook.Consistent.unique (consistent : b.Consistent) {policy other : Policy}
    (member : policy ∈ b.policies) (member' : other ∈ b.policies)
    (same : policy.version = other.version) : policy = other := by
  obtain ⟨i, found⟩ := mem_iff_getElem?.mp member
  obtain ⟨j, found'⟩ := mem_iff_getElem?.mp member'
  have here := consistent.numbered i policy found
  have there := consistent.numbered j other found'
  obtain rfl : i = j := by omega
  exact Option.mem_unique found found'

theorem PolicyBook.Consistent.record (consistent : b.Consistent) (effectiveFrom : Nat)
    (rules : Rules) : (b.record effectiveFrom rules).Consistent where
  numbered i policy found := by
    rcases concat_eq_some_iff.mp found with ⟨-, old⟩ | ⟨rfl, rfl⟩
    · exact consistent.numbered i policy old
    · rfl
  known := by
    have known := consistent.known
    simp only [PolicyBook.record, length_append, length_singleton]
    omega
  described policy member applied := by
    rcases mem_append.mp member with old | new
    · exact consistent.described policy old applied
    · rw [mem_singleton.mp new] at applied
      have known := consistent.known
      simp only [PolicyBook.record] at applied
      omega

theorem PolicyBook.sync_of_none (none : activePolicy now b.policies none = none) :
    b.sync now = b := by
  unfold PolicyBook.sync
  rw [none]

theorem PolicyBook.sync_of_some {active : Policy}
    (found : activePolicy now b.policies none = some active) :
    b.sync now = if active.version = b.applied then b
      else { b with applied := active.version, live := active.rules } := by
  unfold PolicyBook.sync
  rw [found]

theorem PolicyBook.Consistent.sync (consistent : b.Consistent) (now : Nat) :
    (b.sync now).Consistent := by
  cases found : activePolicy now b.policies none with
  | none =>
    rw [sync_of_none found]
    exact consistent
  | some active =>
    rw [sync_of_some found]
    have member : active ∈ b.policies := by
      rw [activePolicy_eq] at found
      rcases inForce_mem _ _ found with listed | none
      · exact listed
      · cases none
    split
    · exact consistent
    · refine ⟨consistent.numbered, consistent.version_le member, fun policy listed same => ?_⟩
      rw [consistent.unique listed member same]

theorem PolicyBook.Consistent.step (consistent : b.Consistent) (stepped : Step now date b c) :
    c.Consistent := by
  cases stepped with
  | idle => exact consistent
  | change rules =>
    have recorded := consistent.record now rules
    refine ⟨recorded.numbered, by simp [PolicyBook.record], fun policy member newest => ?_⟩
    rcases mem_append.mp member with old | new
    · have bound := consistent.version_le old
      have newest : policy.version = b.policies.length + 1 := newest
      omega
    · rw [mem_singleton.mp new]
      rfl
  | publish effectiveFrom rules => exact (consistent.record effectiveFrom rules).sync now
  | sync => exact consistent.sync now

@[simp] theorem PolicyBook.sync_policies (b : PolicyBook) (now : Nat) :
    (b.sync now).policies = b.policies := by
  unfold PolicyBook.sync
  split
  · rfl
  · split
    · rfl
    · rfl

theorem PolicyBook.Step.policies (stepped : Step now date b c) :
    ∃ recorded, c.policies = b.policies ++ recorded ∧
      ∀ policy ∈ recorded, date = some policy.effectiveFrom := by
  cases stepped with
  | idle => exact ⟨[], (append_nil _).symm, by simp⟩
  | change rules => exact ⟨_, rfl, by simp⟩
  | publish => exact ⟨_, sync_policies _ _, by simp⟩
  | sync => exact ⟨[], by simp, by simp⟩

theorem PolicyBook.Step.answer (stepped : Step now date b c) {timestamp : Nat}
    (later : ∀ effectiveFrom ∈ date, timestamp < effectiveFrom) :
    activePolicy timestamp c.policies none = activePolicy timestamp b.policies none := by
  obtain ⟨recorded, policies, dates⟩ := stepped.policies
  rw [policies, activePolicy_eq, activePolicy_eq, inForce_append]
  exact inForce_of_later _ _ (fun policy member => later _ (dates policy member)) _

end Book

/-! ### Every call is a step of the book -/

/-- The date of the version that a call records. -/
def Call.effectiveFrom (now : Nat) : Call → Option Nat
  | .admin (.setAllowlistEnforced _) | .admin (.setKycHighValueThreshold _)
  | .admin (.setReportingThresholds _) => some now
  | .admin (.publishCompliancePolicy _ _ _ effectiveFrom) => some effectiveFrom
  | _ => none

/-- The calls about policies: the setters, publishing and applying. -/
def Call.setsPolicy : Call → Bool
  | .admin (.setAllowlistEnforced _) | .admin (.setKycHighValueThreshold _)
  | .admin (.setReportingThresholds _) | .admin (.publishCompliancePolicy ..)
  | .admin .syncCompliancePolicy => true
  | _ => false

theorem Call.effectiveFrom_of_check {call : Call} (check : call.setsPolicy = false) (now : Nat) :
    call.effectiveFrom now = none := by
  cases call with
  | admin call =>
    cases call with
    | setAllowlistEnforced => cases check
    | setKycHighValueThreshold => cases check
    | setReportingThresholds => cases check
    | publishCompliancePolicy => cases check
    | _ => rfl
  | _ => rfl

theorem syncActivePolicy_policyBook (env : Env) (s : State) :
    (syncActivePolicy env).wp s fun _ t => t.policyBook = s.policyBook.sync env.now := by
  simp only [syncActivePolicy, setCompliance, wp_rules]
  cases found : activePolicy env.now s.compliance.policies none with
  | none =>
    rw [wp_pure, PolicyBook.sync_of_none found]
  | some active =>
    rw [PolicyBook.sync_of_some found]
    simp only [wp_rules]
    refine ⟨fun same => ?_, fun other _ _ => ?_⟩
    · exact (if_pos same).symm
    · exact (if_neg other).symm

theorem recordLiveChange_policyBook (env : Env) (s : State) :
    (recordLiveChange env).wp s fun _ t => t.policyBook =
      { s.policyBook.record env.now s.liveRules with
        applied := s.policyBook.policies.length + 1 } := by
  simp only [recordLiveChange, appendPolicy, setCompliance, wp_rules]
  simp [State.policyBook, State.liveRules, PolicyBook.record]

theorem PolicyBook.Step.of_eq {b c : PolicyBook} {now : Nat}
    (same : c = b) : Step now none b c := by
  rw [same]
  exact .idle

theorem execAdmin_policyStep (env : Env) (call : AdminCall) (s : State) :
    (execAdmin env call).wp s fun _ t =>
      PolicyBook.Step env.now ((Call.admin call).effectiveFrom env.now) s.policyBook t.policyBook := by
  cases call with
  | publishCompliancePolicy kycThreshold enforced thresholds effectiveFrom =>
    simp only [execAdmin.eq_def, publishCompliancePolicy, appendPolicy, setCompliance, wp_rules]
    intros
    refine (syncActivePolicy_policyBook env _).mono fun _ t synced => ?_
    rw [synced]
    exact .publish effectiveFrom ⟨kycThreshold, enforced, thresholds⟩
  | syncCompliancePolicy =>
    refine (syncActivePolicy_policyBook env s).mono fun _ t synced => ?_
    rw [synced]
    exact .sync
  | setAllowlistEnforced _ | setKycHighValueThreshold _ | setReportingThresholds _ =>
    simp only [execAdmin.eq_def, setAllowlistEnforced, setKycHighValueThreshold, setReportingThresholds,
      setCompliance, wp_rules]
    intros
    refine (recordLiveChange_policyBook env _).mono fun _ t recorded => ?_
    rw [recorded]
    exact .change _
  | _ =>
    refine Tx.wp.mono ?_ fun _ t same => PolicyBook.Step.of_eq same
    simp [execAdmin.eq_def, pause, unpause, setConfig, setCompliance, setMinCheckInInterval,
      setMaxCheckInInterval, setMaxTtlSeconds, setTtlDecayRate, setMinCheckinCooldown,
      setOwnerVaultLimit, setBeneficiaryVaultLimit, proposeProtocolConfig, applyProtocolConfig,
      whitelistToken, removeTokenWhitelist, registerWrappedToken, unregisterWrappedToken,
      proposeAdmin, acceptAdmin, setAmlOracle, setAmlReporter, flagAmlAddress, unflagAmlAddress,
      blacklistAddress, removeFromBlacklist, addToAllowlist, removeFromAllowlist, setKycProvider,
      verifyKyc, revokeKyc, adminRevokeKyc, requireCallerAdmin, requireAdminOrReporter,
      requireKycProvider, revokeKycRecord, wp_ite, State.policyBook, State.liveRules]

theorem exec_policyStep (env : Env) (call : Call) (s : State) : (exec env call).wp s fun _ t =>
      PolicyBook.Step env.now (call.effectiveFrom env.now) s.policyBook t.policyBook := by
  by_cases plain : call.administers = false
  · have silent : call.effectiveFrom env.now = none := by
      cases call with
      | admin call => cases plain
      | _ => rfl
    refine (exec_side SideBooks.compliance (fun _ _ => rfl) env call plain s).mono fun _ t same => ?_
    rw [silent]
    refine .of_eq ?_
    unfold State.policyBook State.liveRules
    rw [same]
  · cases call with
    | admin call => exact execAdmin_policyStep env call s
    | _ => exact absurd rfl plain

/-! ### Runs -/

/-- The version in force is the applied one: `sync_active_policy` has nothing to do. -/
def Synced (now : Nat) (s : State) : Prop :=
  (activePolicy now s.compliance.policies none).map (·.version) = some s.compliance.appliedPolicy

instance Synced.decidable (now : Nat) (s : State) : Decidable (Synced now s) :=
  inferInstanceAs (Decidable (_ = _))

/-- **Asked about the time of any check, the history names the rules the check used.** Every call
but those about policies counts as a check. -/
def EnforcedHistory (history : History) (s : State) : Prop :=
  ∀ event ∈ history, event.input.call.setsPolicy = false →
    ∃ policy, getPolicyVersion event.input.env.now s = .ok (policy, s) ∧
      policy.rules = event.before.liveRules

/-- A version that is recorded after a check takes effect after it. -/
def RecordsLater (check event : VaultEvent) : Prop :=
  check.input.call.setsPolicy = false →
    ∀ effectiveFrom ∈ event.input.call.effectiveFrom event.input.env.now,
      check.input.env.now < effectiveFrom

instance RecordsLater.decidable : DecidableRel RecordsLater :=
  fun _ _ => inferInstanceAs (Decidable (_ → _))

section Runs

variable {host : Host} {xlmToken admin : Address} {ledger : Ledger Address Address}
  {history : History} {s r : State}

theorem run_policyBook_consistent
    (run : ContractRun host (initialState xlmToken admin ledger) history s) :
    s.policyBook.Consistent := by
  refine run.invariant (fun s => s.policyBook.Consistent) (fun _ _ => True) ?_ ?_ (by simp)
  · refine ⟨?_, le_rfl, ?_⟩
    · intro i policy found
      cases found
    · intro policy member
      cases member
  · intro s input t consistent _ stepped
    exact consistent.step (exec_policyStep input.env input.call s _ _ stepped.2)

theorem run_answer (run : ContractRun host r history s) {timestamp : Nat}
    (later : ∀ event ∈ history, ∀ effectiveFrom ∈ event.input.call.effectiveFrom event.input.env.now,
      timestamp < effectiveFrom) :
    activePolicy timestamp s.compliance.policies none =
      activePolicy timestamp r.compliance.policies none := by
  refine run.invariant (fun s => activePolicy timestamp s.compliance.policies none =
      activePolicy timestamp r.compliance.policies none)
    (fun _ input => ∀ effectiveFrom ∈ input.call.effectiveFrom input.env.now,
      timestamp < effectiveFrom) rfl ?_ later
  intro s input t same allowed stepped
  exact ((exec_policyStep input.env input.call s _ _ stepped.2).answer allowed).trans same

/-- **The history names the rules that were enforced**, in every run in which each check finds the
version in force applied, and a version that is recorded after a check takes effect after it. -/
theorem history_enforced_of_synced
    (run : ContractRun host (initialState xlmToken admin ledger) history s)
    (synced : ∀ event ∈ history, event.input.call.setsPolicy = false →
      Synced event.input.env.now event.before)
    (later : history.Pairwise RecordsLater) : EnforcedHistory history s := by
  intro event member check
  obtain ⟨earlier, after, whole, before, stepped, rest⟩ := run.at_event member
  -- the version in force is the applied one, which describes the live rules
  obtain ⟨policy, found, applied⟩ := Option.map_eq_some_iff.mp (synced event member check)
  have listed : policy ∈ event.before.compliance.policies := by
    have search := found
    rw [activePolicy_eq] at search
    rcases inForce_mem _ _ search with listed | none
    · exact listed
    · cases none
  have rules := (run_policyBook_consistent before).described policy listed applied
  -- and it is still the answer at the end
  have moved := exec_policyStep _ _ _ _ _ stepped.2
  rw [Call.effectiveFrom_of_check check] at moved
  have kept : activePolicy event.input.env.now event.after.compliance.policies none =
      activePolicy event.input.env.now event.before.compliance.policies none :=
    moved.answer (by simp)
  rw [whole] at later
  have laterEvents := (pairwise_cons.mp (pairwise_append.mp later).2.1).1
  have answer := run_answer rest fun other mem => laterEvents other mem check
  refine ⟨policy, ?_, rules⟩
  rw [Tx.eq_ok_iff]
  simp only [getPolicyVersion, succeeds_rules]
  exact ⟨policy, answer.trans (kept.trans found), rfl, trivial⟩

end Runs

/-! ### A scheduled policy -/

def scheduledAllowlist : Scenario :=
  [(1, ⟨2⟩, .admin (.setKycHighValueThreshold 0)), (1000, ⟨3⟩, .createVault ⟨3⟩ ⟨4⟩ 86400 none),
    (1001, ⟨3⟩, .deposit 1 ⟨3⟩ 100),
    (1002, ⟨2⟩, .admin (.publishCompliancePolicy 0 true none 2000))]

def appliedInTime : List Invocation :=
  plainInputs (scheduledAllowlist ++ [(1500, ⟨2⟩, .admin (.addToAllowlist ⟨3⟩)),
    (2000, ⟨5⟩, .admin .syncCompliancePolicy), (2500, ⟨3⟩, .withdraw 1 ⟨3⟩ 10)])

theorem history_enforced_appliedInTime :
    let run := replay fundedState appliedInTime
    run.1.length = 7 ∧ EnforcedHistory run.1 run.2 :=
  ⟨by decide +kernel, history_enforced_of_synced (plainInputs_run _) (by decide +kernel)
    (by decide +kernel)⟩

def unlistedWithdrawal : VaultEvent :=
  nextEvent fundedState (plainInputs scheduledAllowlist) ⟨plainEnv 2500 [⟨3⟩], .withdraw 1 ⟨3⟩ 10⟩

/-- The history says that the allowlist was enforced at 2500; the withdrawal was checked without it.
-/
theorem scheduled_not_enforced :
    PlainRun
        ((played scheduledAllowlist).1 ++ [unlistedWithdrawal])
        unlistedWithdrawal.after ∧
      unlistedWithdrawal.before.compliance.allowlist ⟨3⟩ = false ∧
      unlistedWithdrawal.before.liveRules.allowlistEnforced = false ∧
      (activePolicy 2500 unlistedWithdrawal.after.compliance.policies none).map
        (·.allowlistEnforced) = some true ∧
      ¬ EnforcedHistory
        ((played scheduledAllowlist).1 ++ [unlistedWithdrawal])
        unlistedWithdrawal.after := by
  refine ⟨.snoc (plainInputs_run _) ⟨rfl, Tx.eq_ok_after (by decide +kernel)⟩, rfl, rfl,
    by decide +kernel, fun enforced => ?_⟩
  obtain ⟨policy, asked, same⟩ := enforced unlistedWithdrawal mem_concat_self rfl
  cases asked
  cases same

end EthosContracts.TtlVault
