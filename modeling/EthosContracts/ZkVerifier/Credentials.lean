/-
**Credentials: the numbers of the attested pairs, and their parents.**

`attest` and `create_derived_credential` return the number of the pair they attest. The number that
a pair already has is looked up in a storage to which no record is ever written, so every call mints
a new one.
-/

import Mathlib.Data.List.Nodup
import EthosContracts.ZkVerifier.Attestations

namespace EthosContracts.ZkVerifier

open Lib Soroban Function List
open TtlVault (Address Bytes Hash)

/-- The call attests the pair and returns this credential. -/
def Issues (sha256 : Bytes → Hash) (event : VerifierEvent) (pair : Bytes × Bytes) (id : Nat) :
    Prop :=
  event.input.call.attests.map Prod.snd = some pair ∧ issuedId sha256 event = some id

/-- **A credential has one identity**, after a history. -/
structure OneIdentity (sha256 : Bytes → Hash) (history : List VerifierEvent) (s : VerifierState) :
    Prop where
  again : ∀ earlier first between second later,
    history = earlier ++ first :: (between ++ second :: later) →
    ∀ pair id other, Issues sha256 first pair id → Issues sha256 second pair other → other = id
  different : ∀ first ∈ history, ∀ second ∈ history, ∀ pair other id,
    Issues sha256 first pair id → Issues sha256 second other id → other = pair
  table : ∀ id key, s.credentialHashes id = some key ↔
    ∃ event ∈ history, ∃ pair, Issues sha256 event pair id ∧ key = hashes sha256 pair
  records : ∀ id key, (s.attestation key).map (·.credentialId) = some id ↔
    s.credentialHashes id = some key
  parentKept : ∀ event ∈ history, ∀ id parent, event.before.credentialParent id = some parent →
    event.after.credentialParent id = some parent
  parentOther : ∀ id, s.credentialParent id ≠ some id
  derivedOnce : ∀ earlier first between second later,
    history = earlier ++ first :: (between ++ second :: later) →
    ∀ oracle oracle' parent parent' proof claim,
      first.input.call = .createDerivedCredential oracle parent proof claim →
      second.input.call = .createDerivedCredential oracle' parent' proof claim → parent' = parent

/-- No pair is attested twice. -/
def NoneTwice (history : List VerifierEvent) : Prop :=
  ((attestations history).map Prod.snd).Nodup

section Numbers

variable {sha256 : Bytes → Hash} {history : List VerifierEvent} {s t : VerifierState}
  {input : VerifierInput}

theorem VerifierStep.issued_of {pair : Bytes × Bytes} {id : Nat}
    (stepped : VerifierStep sha256 input s t) (issues : Issues sha256 ⟨s, input, t⟩ pair id) :
    ∃ oracle parent, Issued sha256 input.env oracle pair parent id s t := by
  obtain ⟨attested, number⟩ := issues
  cases stepped with
  | issues oracle other parent returned call result issued =>
    cases result.symm.trans number
    rw [call, Option.map_some, Option.some.injEq] at attested
    subst attested
    exact ⟨oracle, parent, issued⟩
  | reschedules _ _ _ call | keeps call =>
    rw [call] at attested
    cases attested

/-- **What holds of the numbers in every run.** -/
structure Numbered (sha256 : Bytes → Hash) (history : List VerifierEvent) (s : VerifierState) :
    Prop where
  issued : ∀ event ∈ history, ∀ pair id, Issues sha256 event pair id →
    s.credentialHashes id = some (hashes sha256 pair)
  listed : ∀ id key, s.credentialHashes id = some key → id ≤ s.credentialCount ∧
    ∃ event ∈ history, ∃ pair, Issues sha256 event pair id ∧ key = hashes sha256 pair
  parentOther : ∀ id, s.credentialParent id ≠ some id

namespace Numbered

variable {pair : Bytes × Bytes} {id : Nat}

variable (numbered : Numbered sha256 history s)
include numbered

theorem bounded {event : VerifierEvent} (member : event ∈ history)
    (issues : Issues sha256 event pair id) : id ≤ s.credentialCount :=
  (numbered.listed id _ (numbered.issued event member pair id issues)).1

theorem keep (call : input.call.attests = none) (table : t.credentialHashes = s.credentialHashes)
    (count : t.credentialCount = s.credentialCount)
    (parents : t.credentialParent = s.credentialParent) :
    Numbered sha256 (history ++ [⟨s, input, t⟩]) t := by
  refine ⟨fun event member pair id issues => ?_, fun id key stored => ?_, ?_⟩
  · rw [table]
    rcases mem_append.mp member with earlier | last
    · exact numbered.issued event earlier pair id issues
    · rw [mem_singleton.mp last] at issues
      have attested := issues.1
      simp only [call, Option.map_none] at attested
      cases attested
  · rw [table] at stored
    rw [count]
    obtain ⟨below, event, member, issues⟩ := numbered.listed id key stored
    exact ⟨below, event, mem_append_left _ member, issues⟩
  · rw [parents]
    exact numbered.parentOther

theorem issue {oracle : Address} {parent : Option Nat}
    (call : input.call.attests = some (oracle, pair))
    (returned : issuedId sha256 ⟨s, input, t⟩ = some id)
    (issued : Issued sha256 input.env oracle pair parent id s t) :
    Numbered sha256 (history ++ [⟨s, input, t⟩]) t := by
  have here : Issues sha256 ⟨s, input, t⟩ pair id := ⟨by rw [call]; rfl, returned⟩
  refine ⟨fun event member other number issues => ?_, ?_, fun number => ?_⟩
  · rw [issued.table]
    rcases mem_append.mp member with earlier | last
    · have below := numbered.bounded earlier issues
      have old : number ≠ id := by
        rw [issued.fresh]
        omega
      rw [update_of_ne old]
      exact numbered.issued event earlier other number issues
    · rw [mem_singleton.mp last] at issues
      cases here.1.symm.trans issues.1
      cases here.2.symm.trans issues.2
      exact update_self ..
  · rw [issued.table, issued.count]
    refine forall_entries_update (fun number key _ kept => ?_) ?_
    · obtain ⟨below, event, member, issues⟩ := numbered.listed number key kept
      refine ⟨?_, event, mem_append_left _ member, issues⟩
      rw [issued.fresh]
      exact below.trans (Nat.le_succ _)
    · exact ⟨le_rfl, _, mem_concat_self, pair, here, rfl⟩
  · rcases issued.parents with ⟨same, -⟩ | ⟨parentId, -, other, -, set⟩
    · rw [same]
      exact numbered.parentOther number
    · rw [set]
      intro own
      rcases update_eq_some_iff.mp own with ⟨rfl, rfl⟩ | ⟨-, kept⟩
      · exact other rfl
      · exact numbered.parentOther number kept

theorem step (stepped : VerifierStep sha256 input s t) :
    Numbered sha256 (history ++ [⟨s, input, t⟩]) t := by
  cases stepped with
  | issues oracle pair parent id call returned issued => exact numbered.issue call returned issued
  | reschedules _ _ _ call _ after =>
    subst after
    exact numbered.keep call rfl rfl rfl
  | keeps call same => exact numbered.keep call same.table same.count same.parents

end Numbered

variable (run : VerifierRun sha256 history s)
include run

theorem run_numbered : Numbered sha256 history s :=
  run_induction run (Numbered sha256) ⟨by simp, by simp, by simp⟩
    fun _ _ _ _ numbered stepped => numbered.step stepped

theorem issued_increasing {earlier between later : List VerifierEvent}
    {first second : VerifierEvent}
    (whole : history = earlier ++ first :: (between ++ second :: later))
    {pair other : Bytes × Bytes} {id number : Nat} (issues : Issues sha256 first pair id)
    (again : Issues sha256 second other number) : id < number := by
  have joined : history = (earlier ++ first :: between) ++ second :: later := by
    rw [whole]
    simp
  obtain ⟨before, ran, -⟩ := run.at_split joined
  have below : id ≤ second.before.credentialCount :=
    (run_numbered before).bounded mem_append_cons_self issues
  have stepped : VerifierStep sha256 second.input second.before second.after :=
    execVerifier_step (run_unused before) () _ ran
  obtain ⟨oracle, parent, issued⟩ := stepped.issued_of again
  rw [issued.fresh]
  omega

end Numbers

section Identity

variable {sha256 : Bytes → Hash} {history : List VerifierEvent} {s t : VerifierState}

variable {pair : Bytes × Bytes} {id : Nat}

theorem not_noneTwice {earlier between later : List VerifierEvent} {first second : VerifierEvent}
    (attested : first.input.call.attests.map Prod.snd = some pair)
    (again : second.input.call.attests.map Prod.snd = some pair) :
    ¬ NoneTwice (earlier ++ first :: (between ++ second :: later)) := by
  obtain ⟨⟨oracle, _⟩, call, rfl⟩ := Option.map_eq_some_iff.mp attested
  obtain ⟨⟨other, _⟩, calledAgain, rfl⟩ := Option.map_eq_some_iff.mp again
  unfold NoneTwice attestations
  simp [filterMap_append, call, calledAgain, nodup_append]

theorem noneTwice_concat {event : VerifierEvent} :
    NoneTwice (history ++ [event]) ↔ NoneTwice history ∧
      ∀ oracle pair, event.input.call.attests = some (oracle, pair) →
        pair ∉ (attestations history).map Prod.snd := by
  unfold NoneTwice
  rw [attestations_concat]
  cases call : event.input.call.attests with
  | none => simp
  | some attested =>
    rw [Option.toList_some, map_append, map_singleton, nodup_append]
    simp only [nodup_cons, not_mem_nil, not_false_eq_true, nodup_nil, and_self,
      mem_singleton, true_and, Option.some.injEq]
    constructor
    · rintro ⟨distinct, apart⟩
      refine ⟨distinct, ?_⟩
      rintro oracle pair rfl member
      exact apart pair member pair rfl rfl
    · rintro ⟨distinct, new⟩
      refine ⟨distinct, ?_⟩
      rintro pair member _ rfl rfl
      exact new attested.1 attested.2 rfl member

theorem issues_of_attested (run : VerifierRun sha256 history s)
    (member : pair ∈ (attestations history).map Prod.snd) :
    ∃ event ∈ history, ∃ id, Issues sha256 event pair id := by
  obtain ⟨⟨oracle, _⟩, listed, rfl⟩ := mem_map.mp member
  obtain ⟨event, present, call⟩ := mem_filterMap.mp listed
  obtain ⟨_, _, _, before, ran, -⟩ := run.at_event present
  refine ⟨event, present, ?_⟩
  have stepped : VerifierStep sha256 event.input event.before event.after :=
    execVerifier_step (run_unused before) () _ ran
  cases stepped with
  | issues _ _ _ id _ returned _ => exact ⟨id, by rw [call]; rfl, returned⟩
  | reschedules _ _ _ silent | keeps silent => cases call.symm.trans silent

theorem noneTwice_of_again (run : VerifierRun sha256 history s)
    (again : ∀ earlier first between second later,
      history = earlier ++ first :: (between ++ second :: later) →
      ∀ pair id other, Issues sha256 first pair id → Issues sha256 second pair other → other = id) :
    NoneTwice history := by
  induction run with
  | nil => exact nodup_nil
  | @snoc front r t input run ran ih =>
    refine noneTwice_concat.mpr ⟨ih ?_, fun oracle pair call member => ?_⟩
    · intro earlier first between second later whole
      refine again earlier first between second (later ++ [⟨r, input, t⟩]) ?_
      rw [whole]
      simp
    · -- the second number of the pair is greater than the first
      obtain ⟨first, present, id, issues⟩ := issues_of_attested run member
      obtain ⟨earlier, between, whole⟩ := append_of_mem present
      have split : front ++ [⟨r, input, t⟩] =
          earlier ++ first :: (between ++ (⟨r, input, t⟩ : VerifierEvent) :: []) := by
        rw [whole]
        simp
      have stepped : VerifierStep sha256 input r t := execVerifier_step (run_unused run) () _ ran
      cases stepped with
      | issues _ other _ number called returned _ =>
        obtain ⟨rfl, rfl⟩ := Prod.mk.inj (Option.mem_unique call called)
        have reissues : Issues sha256 ⟨r, input, t⟩ pair number := ⟨by rw [call]; rfl, returned⟩
        have same := again _ _ _ _ _ split pair id number issues reissues
        have greater := issued_increasing (run.snoc ran) split issues reissues
        omega
      | reschedules _ _ _ silent | keeps silent => cases call.symm.trans silent

/-- The records and the table are inverse to each other. -/
def Inverse (s : VerifierState) : Prop :=
  ∀ id key, (s.attestation key).map (·.credentialId) = some id ↔ s.credentialHashes id = some key

theorem Inverse.issue (injective : Function.Injective sha256) {env : Caller} {oracle : Address}
    {parent : Option Nat} (inverse : Inverse s)
    (numbered : Numbered sha256 history s)
    (new : pair ∉ (attestations history).map Prod.snd)
    (issued : Issued sha256 env oracle pair parent id s t) : Inverse t := by
  have unlisted : ∀ number, s.credentialHashes number ≠ some (hashes sha256 pair) := by
    intro number stored
    obtain ⟨-, event, member, other, issues, same⟩ := numbered.listed number _ stored
    obtain rfl := hashes_injective injective same
    obtain ⟨attested, call, rfl⟩ := Option.map_eq_some_iff.mp issues.1
    exact new (mem_map_of_mem (mem_filterMap.mpr ⟨event, member, call⟩))
  have unused : ∀ key, s.credentialHashes id ≠ some key := by
    intro key stored
    have below := (numbered.listed id key stored).1
    have fresh := issued.fresh
    omega
  intro number key
  rw [issued.records, issued.table, update_eq_some_iff]
  by_cases same : key = hashes sha256 pair
  · subst same
    rw [update_self, Option.map_some, Option.some.injEq]
    constructor
    · rintro rfl
      exact .inl ⟨rfl, rfl⟩
    · rintro (⟨rfl, -⟩ | ⟨-, kept⟩)
      · rfl
      · exact absurd kept (unlisted number)
  · rw [update_of_ne same, inverse number key]
    constructor
    · intro kept
      refine .inr ⟨?_, kept⟩
      rintro rfl
      exact unused key kept
    · rintro (⟨-, other⟩ | ⟨-, kept⟩)
      · exact absurd other.symm same
      · exact kept

theorem run_inverse (injective : Function.Injective sha256) (run : VerifierRun sha256 history s)
    (once : NoneTwice history) : Inverse s := by
  induction run with
  | nil => exact fun _ _ => by simp
  | @snoc front r t input run ran ih =>
    obtain ⟨before, new⟩ := noneTwice_concat.mp once
    have inverse := ih before
    have stepped : VerifierStep sha256 input r t := execVerifier_step (run_unused run) () _ ran
    cases stepped with
    | issues oracle pair parent id call _ issued =>
      exact inverse.issue injective (run_numbered run) (new oracle pair call) issued
    | reschedules key record due _ stored after =>
      subst after
      intro id other
      rw [← inverse id other]
      by_cases same : other = key
      · subst same
        simp [stored]
      · simp [same]
    | keeps _ same =>
      intro id key
      rw [same.records, same.table]
      exact inverse id key

theorem VerifierStep.parentKept {input : VerifierInput} (stepped : VerifierStep sha256 input s t)
    {parent : Nat} (set : s.credentialParent id = some parent) :
    t.credentialParent id = some parent := by
  cases stepped with
  | issues _ _ _ number _ _ issued =>
    rcases issued.parents with ⟨same, -⟩ | ⟨parentId, -, -, existing, after⟩
    · rw [same]
      exact set
    · rw [after]
      by_cases same : id = number
      · subst same
        rw [update_self, existing parent set]
      · rw [update_of_ne same]
        exact set
  | reschedules _ _ _ _ _ after =>
    rw [after]
    exact set
  | keeps _ same =>
    rw [same.parents]
    exact set

/-- **When a credential has one identity.** In every run: exactly if no pair is attested twice. -/
theorem oneIdentity_iff (injective : Function.Injective sha256)
    (run : VerifierRun sha256 history s) : OneIdentity sha256 history s ↔ NoneTwice history := by
  constructor
  · intro identity
    exact noneTwice_of_again run identity.again
  · intro once
    have numbered := run_numbered run
    refine ⟨?_, ?_, ?_, run_inverse injective run once, ?_, numbered.parentOther, ?_⟩
    · intro earlier first between second later whole pair id other issues again
      rw [whole] at once
      exact absurd once (not_noneTwice issues.1 again.1)
    · intro first present second listed pair other id issues again
      have one := numbered.issued first present pair id issues
      have two := numbered.issued second listed other id again
      exact hashes_injective injective (Option.mem_unique two one)
    · intro id key
      constructor
      · exact fun stored => (numbered.listed id key stored).2
      · rintro ⟨event, member, pair, issues, rfl⟩
        exact numbered.issued event member pair id issues
    · intro event member id parent set
      obtain ⟨_, _, _, before, ran, -⟩ := run.at_event member
      exact (execVerifier_step (run_unused before) () _ ran).parentKept set
    · intro earlier first between second later whole _ _ _ _ proof claim called recalled
      rw [whole] at once
      exact absurd once (not_noneTwice (by rw [called]; rfl) (by rw [recalled]; rfl))

end Identity

/-! ### Two runs -/

def derivedPair : List VerifierEvent × VerifierState :=
  play (execVerifier id) {} (signedCalls [(⟨2⟩, .initializeContract ⟨2⟩), (⟨2⟩, .registerOracle ⟨3⟩),
    (⟨3⟩, .attest ⟨3⟩ [1] [2]), (⟨3⟩, .createDerivedCredential ⟨3⟩ 1 [3] [4])])

theorem oneIdentity_derivedPair :
    derivedPair.2.credentialHashes 1 = some ([1], [2]) ∧
      derivedPair.2.credentialHashes 2 = some ([3], [4]) ∧
      derivedPair.2.credentialParent 2 = some 1 ∧
      OneIdentity id derivedPair.1 derivedPair.2 := by
  have attested : (attestations derivedPair.1).map Prod.snd = [([1], [2]), ([3], [4])] := by
    decide +kernel
  refine ⟨by decide +kernel, by decide +kernel, by decide +kernel,
    (oneIdentity_iff (fun _ _ same => same) (play_executes _ _ _)).mpr ?_⟩
  show ((attestations derivedPair.1).map Prod.snd).Nodup
  rw [attested]
  decide

/-- **One pair, two numbers**: `3` and `4` have attested the same pair, the table lists it under 1
and 2, and the record knows 2 only. -/
theorem second_identity :
    VerifierRun id (bothAttestedRun ⟨5⟩).1 (bothAttestedRun ⟨5⟩).2 ∧
      attesters ([1], [2]) (bothAttestedRun ⟨5⟩).1 = [⟨3⟩, ⟨4⟩] ∧
      (bothAttestedRun ⟨5⟩).1.filterMap (issuedId id) = [1, 2] ∧
      (bothAttestedRun ⟨5⟩).2.credentialHashes 1 = some ([1], [2]) ∧
      (bothAttestedRun ⟨5⟩).2.credentialHashes 2 = some ([1], [2]) ∧
      ¬ OneIdentity id (bothAttestedRun ⟨5⟩).1 (bothAttestedRun ⟨5⟩).2 := by
  have first : (bothAttestedRun ⟨5⟩).2.credentialHashes 1 = some ([1], [2]) := by decide +kernel
  refine ⟨play_executes _ _ _, by decide +kernel, by decide +kernel, first, by decide +kernel,
    fun identity => ?_⟩
  have recorded := (identity.records 1 ([1], [2])).mpr first
  revert recorded
  decide +kernel

end EthosContracts.ZkVerifier
