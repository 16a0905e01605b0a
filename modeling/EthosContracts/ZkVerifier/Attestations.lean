/-
**Attestations: whose word a verified claim rests on.**

`verify_claim` looks up the one record that is stored for a pair of a proof and a claim, and asks
whether the oracle it names is registered. Every attestation of the pair replaces the record.
-/

import EthosContracts.ZkVerifier.Verifier

namespace EthosContracts.ZkVerifier

open Lib Soroban Function List
open TtlVault (Address Bytes Hash)

/-- Everything that has been attested: the oracles and the pairs. -/
def attestations (history : List VerifierEvent) : List (Address × (Bytes × Bytes)) :=
  history.filterMap fun event => event.input.call.attests

/-- **The oracles that have attested a pair**, in the order of their calls. -/
def attesters (pair : Bytes × Bytes) (history : List VerifierEvent) : List Address :=
  ((attestations history).filter fun attested => attested.2 = pair).map Prod.fst

/-- Proof and claim are given and not too large. -/
structure Admissible (proof claim : Bytes) : Prop where
  proofGiven : proof ≠ []
  proofSize : proof.length ≤ maxProofSize
  claimGiven : claim ≠ []
  claimSize : claim.length ≤ maxClaimSize

/-- **A verified claim is vouched for by a registered oracle**, after a history. -/
structure Vouched (sha256 : Bytes → Hash) (history : List VerifierEvent) (s : VerifierState) :
    Prop where
  verified : ∀ env proof claim, Admissible proof claim →
    (verifyClaim sha256 env proof claim).succeeds s fun result _ =>
      (result = true ↔ ∃ oracle ∈ attesters (proof, claim) history, s.oracle oracle = true)
  spared : ∀ front before caller revoked,
    history = front ++ [⟨before, ⟨caller, .revokeOracle revoked⟩, s⟩] →
    ∀ env proof claim, Admissible proof claim →
    ∀ other ∈ attesters (proof, claim) history, s.oracle other = true →
    (verifyClaim sha256 env proof claim).succeeds s fun result _ => result = true

/-- If an attester of a pair is still registered, the last one is. -/
def LastStands (history : List VerifierEvent) (s : VerifierState) : Prop :=
  ∀ proof claim, Admissible proof claim →
    (∃ oracle ∈ attesters (proof, claim) history, s.oracle oracle = true) →
    ∀ last ∈ (attesters (proof, claim) history).getLast?, s.oracle last = true

section Records

variable {sha256 : Bytes → Hash} {history : List VerifierEvent} {s : VerifierState}

theorem hashes_injective (injective : Function.Injective sha256) :
    Function.Injective (hashes sha256) := by
  intro first second same
  exact Prod.ext (injective (congrArg Prod.fst same)) (injective (congrArg Prod.snd same))

theorem attestations_concat (event : VerifierEvent) : attestations (history ++ [event]) =
      attestations history ++ event.input.call.attests.toList := by
  unfold attestations
  cases call : event.input.call.attests <;> simp [call]

theorem attesters_silent {event : VerifierEvent} (silent : event.input.call.attests = none)
    (pair : Bytes × Bytes) : attesters pair (history ++ [event]) = attesters pair history := by
  rw [attesters, attestations_concat, silent, Option.toList_none, append_nil]
  rfl

theorem attesters_attests {event : VerifierEvent} {oracle : Address} {attested : Bytes × Bytes}
    (call : event.input.call.attests = some (oracle, attested)) (pair : Bytes × Bytes) :
    attesters pair (history ++ [event]) =
      if attested = pair then attesters pair history ++ [oracle] else attesters pair history := by
  rw [attesters, attestations_concat, call, Option.toList_some, filter_append, map_append]
  by_cases same : attested = pair
  · rw [if_pos same, filter_cons_of_pos (by simpa using same)]
    rfl
  · rw [if_neg same, filter_cons_of_neg (by simpa using same)]
    exact append_nil _

/-- The record of every pair names its last attester. -/
def LastRecorded (sha256 : Bytes → Hash) (history : List VerifierEvent) (s : VerifierState) :
    Prop :=
  ∀ pair, (s.attestation (hashes sha256 pair)).map (·.oracle) = (attesters pair history).getLast?

variable (injective : Function.Injective sha256)
include injective

theorem LastRecorded.step {input : VerifierInput} {t : VerifierState}
    (recorded : LastRecorded sha256 history s) (stepped : VerifierStep sha256 input s t) :
    LastRecorded sha256 (history ++ [⟨s, input, t⟩]) t := by
  intro pair
  cases stepped with
  | issues oracle attested parent id call _ issued =>
    rw [issued.records, attesters_attests call]
    by_cases same : attested = pair
    · subst same
      rw [update_self, if_pos rfl, List.getLast?_concat]
      rfl
    · have other : hashes sha256 pair ≠ hashes sha256 attested :=
        fun equal => same (hashes_injective injective equal.symm)
      rw [update_of_ne other, if_neg same]
      exact recorded pair
  | reschedules key record due call stored after =>
    rw [attesters_silent call, after]
    by_cases same : hashes sha256 pair = key
    · -- the oracle of the record stays
      rw [← recorded pair, same, stored]
      simp
    · simp only [update_of_ne same]
      exact recorded pair
  | keeps call same =>
    rw [attesters_silent call, same.records]
    exact recorded pair

theorem run_lastRecorded (run : VerifierRun sha256 history s) : LastRecorded sha256 history s :=
  run_induction run (LastRecorded sha256) (fun _ => rfl) fun _ _ _ _ recorded stepped =>
    recorded.step injective stepped

end Records

section Verdicts

variable {sha256 : Bytes → Hash} {history : List VerifierEvent} {s : VerifierState}

theorem verifyClaim_succeeds (s : VerifierState) (env : Caller) {proof claim : Bytes}
    (admissible : Admissible proof claim) :
    (verifyClaim sha256 env proof claim).succeeds s fun result t =>
      (result = (s.attestation (hashes sha256 (proof, claim))).any fun record =>
        s.oracle record.oracle) ∧ t.attestation = s.attestation ∧ t.oracle = s.oracle := by
  obtain ⟨proofGiven, proofSize, claimGiven, claimSize⟩ := admissible
  simp only [verifyClaim, verifyInternal, recordVerification, require, succeeds_bind, succeeds_read,
    succeeds_ensure, succeeds_pure, succeeds_write, succeeds_ite]
  exact ⟨proofGiven, proofSize, claimGiven, claimSize, fun _ => ⟨trivial, trivial, trivial⟩,
    fun _ => ⟨trivial, trivial, trivial⟩⟩

theorem verified_iff (recorded : LastRecorded sha256 history s) (pair : Bytes × Bytes) :
    ((s.attestation (hashes sha256 pair)).any fun record => s.oracle record.oracle) = true ↔
      ∃ last ∈ (attesters pair history).getLast?, s.oracle last = true := by
  rw [← recorded pair]
  cases s.attestation (hashes sha256 pair) <;> simp

/-- **When a verified claim is vouched for by a registered oracle.** In every state of every run:
exactly if the oracle that attested a pair last is registered whenever one that attested it is. -/
theorem vouched_iff (injective : Function.Injective sha256) (run : VerifierRun sha256 history s) :
    Vouched sha256 history s ↔ LastStands history s := by
  have recorded := run_lastRecorded injective run
  constructor
  · intro vouched proof claim admissible registered last final
    -- what a call of `verify_claim` returns here
    obtain ⟨result, t, outcome, verdict⟩ := vouched.verified ⟨⟨0⟩, 0, []⟩ proof claim admissible
    obtain ⟨_, _, same, answer, -⟩ := verifyClaim_succeeds s ⟨⟨0⟩, 0, []⟩ admissible
    obtain ⟨rfl, rfl⟩ := Prod.mk.inj (Except.ok.inj (outcome.symm.trans same))
    rw [answer, verified_iff recorded] at verdict
    obtain ⟨other, sameLast, stands⟩ := verdict.mpr registered
    cases final.symm.trans sameLast
    exact stands
  · intro stands
    have answers : ∀ env proof claim, Admissible proof claim →
        (verifyClaim sha256 env proof claim).succeeds s fun result _ =>
          (result = true ↔ ∃ oracle ∈ attesters (proof, claim) history, s.oracle oracle = true) := by
      intro env proof claim admissible
      refine (verifyClaim_succeeds s env admissible).mono fun result t answer => ?_
      rw [answer.1, verified_iff recorded]
      constructor
      · rintro ⟨last, final, registered⟩
        exact ⟨last, mem_of_getLast? final, registered⟩
      · rintro ⟨oracle, member, registered⟩
        have final := List.getLast?_eq_some_getLast (ne_nil_of_mem member)
        exact ⟨_, final, stands proof claim admissible ⟨oracle, member, registered⟩ _ final⟩
    refine ⟨answers, ?_⟩
    intro _ _ _ _ _ env proof claim admissible other member registered
    exact (answers env proof claim admissible).mono fun result _ verdict =>
      verdict.mpr ⟨other, member, registered⟩

end Verdicts

/-! ### Two oracles -/

def signedCalls (calls : List (Address × VerifierCall)) : List VerifierInput :=
  calls.mapIdx fun index (signer, call) => ⟨⟨⟨0⟩, index + 1, [signer]⟩, call⟩

def bothAttested (revoked : Address) : List VerifierInput :=
  signedCalls [(⟨2⟩, .initializeContract ⟨2⟩), (⟨2⟩, .registerOracle ⟨3⟩),
    (⟨2⟩, .registerOracle ⟨4⟩), (⟨3⟩, .attest ⟨3⟩ [1] [2]), (⟨4⟩, .attest ⟨4⟩ [1] [2]),
    (⟨2⟩, .revokeOracle revoked)]

def bothAttestedRun (revoked : Address) : List VerifierEvent × VerifierState :=
  play (execVerifier id) {} (bothAttested revoked)

/-- The first attester is revoked, and the pair rests on the second one. -/
theorem vouched_firstRevoked :
    (bothAttestedRun ⟨3⟩).2.oracle ⟨3⟩ = false ∧
      Vouched id (bothAttestedRun ⟨3⟩).1 (bothAttestedRun ⟨3⟩).2 := by
  refine ⟨by decide +kernel, (vouched_iff (fun _ _ same => same) (play_executes _ _ _)).mpr ?_⟩
  intro proof claim _ _ last final
  have all : attestations (bothAttestedRun ⟨3⟩).1 =
      [(⟨3⟩, ([1], [2])), (⟨4⟩, ([1], [2]))] := by decide +kernel
  change last ∈ (attesters (proof, claim) (bothAttestedRun ⟨3⟩).1).getLast? at final
  rw [attesters, all] at final
  by_cases pair : (([1], [2]) : Bytes × Bytes) = (proof, claim)
  · simp only [pair, decide_true, filter_cons_of_pos, filter_nil, map_cons,
      map_nil, List.getLast?_cons_cons, List.getLast?_singleton, Option.mem_some_iff] at final
    rw [← final]
    decide +kernel
  · simp [pair] at final

/-- **The last attester is revoked**: the other one is registered and has attested the pair, and
`verify_claim` refuses it. -/
theorem revoked_last_attester :
    VerifierRun id (bothAttestedRun ⟨4⟩).1 (bothAttestedRun ⟨4⟩).2 ∧
      (⟨3⟩ : Address) ∈ attesters ([1], [2]) (bothAttestedRun ⟨4⟩).1 ∧
      (bothAttestedRun ⟨4⟩).2.oracle ⟨3⟩ = true ∧
      (verifyClaim id ⟨⟨0⟩, 9, []⟩ [1] [2]).succeeds (bothAttestedRun ⟨4⟩).2
        (fun result _ => result = false) ∧
      ¬ Vouched id (bothAttestedRun ⟨4⟩).1 (bothAttestedRun ⟨4⟩).2 := by
  refine ⟨play_executes _ _ _, by decide +kernel, rfl, ⟨_, _, rfl, rfl⟩, fun vouched => ?_⟩
  obtain ⟨_, _, same, verdict⟩ := vouched.verified ⟨⟨0⟩, 9, []⟩ [1] [2]
    ⟨by decide, by decide, by decide, by decide⟩
  cases same
  cases verdict.mpr ⟨⟨3⟩, by decide +kernel, rfl⟩

end EthosContracts.ZkVerifier
