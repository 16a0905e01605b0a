/-
**Consistent batches** (`verify_credentials_consistent`).

The kind of a claim is guessed from its bytes: a claim of eight bytes or more whose first eight are
a reasonable range is an age claim, and one whose first byte is 0, 1 or 2 is a status claim.
-/

import Mathlib.Data.List.Pairwise
import EthosContracts.ZkVerifier.Attestations

namespace EthosContracts.ZkVerifier

open Lib Soroban List
open TtlVault (Bytes Hash)

def maxCredentialBatchSize : Nat := 100

inductive ConsistencyError
  | emptyBatch
  | conflictDetected

inductive KycStatus
  | pending
  | approved
  | rejected
  | unknown
deriving DecidableEq

/-- `u32::from_be_bytes`. -/
def fromBeBytes (bytes : Bytes) : Nat :=
  bytes.foldl (fun n byte => n * 256 + byte.toNat) 0

def parseAgeClaim (claim : Bytes) : Option (Nat × Nat) :=
  if claim.length < 8 then none
  else some (fromBeBytes (claim.take 4), fromBeBytes ((claim.drop 4).take 4))

def ageRangesCompatible (a b : Nat × Nat) : Bool := a.1 ≤ b.2 ∧ b.1 ≤ a.2

def isAgeClaim (claim : Bytes) : Bool :=
  (parseAgeClaim claim).any fun range => range.1 < range.2 ∧ range.2 < 200

def extractKycStatus (claim : Bytes) : Option KycStatus :=
  claim.head?.map fun byte =>
    if byte = 0 then .pending else if byte = 1 then .approved else if byte = 2 then .rejected
    else .unknown

def isKycStatusClaim (claim : Bytes) : Bool :=
  (extractKycStatus claim).any (· ≠ .unknown)

def kycStatusesCompatible (a b : KycStatus) : Bool :=
  a = b ∨ ¬ (a ∈ [.pending, .approved] ∧ b = .rejected ∨ a = .rejected ∧ b ∈ [.pending, .approved])

/-- A rule of the registry: claims that are not parsed do not conflict. -/
def compatibleBy {α : Type} (parse : Bytes → Option α) (compatible : α → α → Bool)
    (claimA claimB : Bytes) : Bool :=
  claimA = claimB || match parse claimA, parse claimB with
    | some a, some b => compatible a b
    | _, _ => true

def areCredentialsCompatible (claimA claimB : Bytes) : Bool :=
  if isAgeClaim claimA = true ∧ isAgeClaim claimB = true then
    compatibleBy parseAgeClaim ageRangesCompatible claimA claimB
  else if isKycStatusClaim claimA = true ∧ isKycStatusClaim claimB = true then
    compatibleBy extractKycStatus kycStatusesCompatible claimA claimB
  else true

def verifyBatchConsistency (pairs : List (Nat × Bytes × Nat × Bytes)) :
    Except ConsistencyError Unit :=
  if pairs = [] then .error .emptyBatch
  else if pairs.all fun (_, claimA, _, claimB) => areCredentialsCompatible claimA claimB then .ok ()
  else .error .conflictDetected

/-- Every two claims of a batch, with their positions. -/
def consistencyPairs (claims : List Bytes) : List (Nat × Bytes × Nat × Bytes) :=
  (range claims.length).flatMap fun i =>
    (range' (i + 1) (claims.length - (i + 1))).filterMap fun j => do
      pure (i, ← claims[i]?, j, ← claims[j]?)

variable (sha256 : Bytes → Hash) (env : Caller)

def verifyEach : List (Bytes × Bytes) → VerifierTx Bool
  | [] => pure true
  | (proof, claim) :: rest => do
    let verified ← verifyClaim sha256 env proof claim
    if verified then verifyEach rest else pure false

def verifyCredentialsConsistent (proofs claims : List Bytes) : VerifierTx Bool := do
  require (proofs.length = claims.length) .mismatchedBatchLengths
  require (proofs ≠ []) .emptyBatchIds
  require (proofs.length ≤ maxCredentialBatchSize) .batchTooLarge
  let verified ← verifyEach sha256 env (proofs.zip claims)
  if verified then pure (verifyBatchConsistency (consistencyPairs claims)).isOk else pure false

/-! ### The rules -/

/-- The range of an age claim of eight bytes. -/
def ageRange (claim : Bytes) : Option (Nat × Nat) :=
  if claim.length = 8 ∧ isAgeClaim claim = true then parseAgeClaim claim else none

/-- No age lies in both ranges. -/
def Disjoint (a b : Nat × Nat) : Prop := b.2 < a.1 ∨ a.2 < b.1

/-- **Two claims conflict**: ages with disjoint ranges, or different statuses. -/
def Conflict (a b : Bytes) : Prop :=
  (∃ range ∈ ageRange a, ∃ other ∈ ageRange b, Disjoint range other) ∨
    ∃ status ≤ (2 : UInt8), ∃ other ≤ (2 : UInt8), a = [status] ∧ b = [other] ∧ status ≠ other

/-- The first bytes are a rejection and another status. -/
def Rejects (a b : Bytes) : Prop :=
  a.head? = some 2 ∧ (b.head? = some 0 ∨ b.head? = some 1)

/-- The first eight bytes are disjoint age ranges. -/
def DisjointAges (a b : Bytes) : Prop :=
  (isAgeClaim a = true ∧ isAgeClaim b = true) ∧
    ∃ range ∈ parseAgeClaim a, ∃ other ∈ parseAgeClaim b, Disjoint range other

/-- The contract compares the first bytes, and one of them is a rejection. -/
def Rejected (a b : Bytes) : Prop :=
  ¬ (isAgeClaim a = true ∧ isAgeClaim b = true) ∧ (Rejects a b ∨ Rejects b a)

/-- **What the contract takes for a conflict.** -/
def Flagged (a b : Bytes) : Prop := DisjointAges a b ∨ Rejected a b

/-- **Read for what they are not**: more than eight bytes as an age, or more than one as a status.
-/
def Misread (a b : Bytes) : Prop :=
  DisjointAges a b ∧ (8 < a.length ∨ 8 < b.length) ∨ Rejected a b ∧ (1 < a.length ∨ 1 < b.length)

/-- **The bytes on which contract and rules agree.** If a pending and an approved status are among
the claims, some claim starts with a rejection or two are disjoint ages; and if two claims are
misread, two conflict. -/
structure Agree (claims : List Bytes) : Prop where
  pending : [0] ∈ claims → [1] ∈ claims → (∃ claim ∈ claims, claim.head? = some 2) ∨
    ¬ claims.Pairwise fun a b => ¬ DisjointAges a b
  misread : ¬ (claims.Pairwise fun a b => ¬ Misread a b) →
    ¬ claims.Pairwise fun a b => ¬ Conflict a b

/-- The pair is verified. -/
def Verifies (s : VerifierState) (pair : Bytes × Bytes) : Prop :=
  (verifyClaim sha256 env pair.1 pair.2).succeeds s fun result _ => result = true

/-- **The answer is yes exactly if all claims are verified and no two conflict.** -/
def Consistent (proofs claims : List Bytes) (s : VerifierState) : Prop :=
  (verifyCredentialsConsistent sha256 env proofs claims).succeeds s fun result _ =>
    (result = true ↔ (∀ pair ∈ proofs.zip claims, Verifies sha256 env s pair) ∧
      claims.Pairwise fun a b => ¬ Conflict a b)

variable {sha256 env} {s : VerifierState} {proofs claims : List Bytes}

theorem compatibleBy_iff {α : Type} {parse : Bytes → Option α} {compatible : α → α → Bool}
    {a b : Bytes} (refl : ∀ x ∈ parse a, compatible x x = true) :
    compatibleBy parse compatible a b = true ↔
      ∀ x ∈ parse a, ∀ y ∈ parse b, compatible x y = true := by
  by_cases same : a = b
  · subst same
    simp only [compatibleBy, decide_true, Bool.true_or, true_iff]
    intro x parsed y also
    rw [Option.mem_unique also parsed]
    exact refl x parsed
  · simp only [compatibleBy, same, decide_false, Bool.false_or]
    cases parse a <;> cases parse b <;> simp

/-- The status rule of the contract, by the four kinds of first bytes. -/
theorem rejects_iff {a b : Bytes} (kyc : ¬ (isAgeClaim a = true ∧ isAgeClaim b = true)) :
    areCredentialsCompatible a b = true ↔ ¬ (Rejects a b ∨ Rejects b a) := by
  have statuses (k : UInt8) : k = 0 ∨ k = 1 ∨ k = 2 ∨ (k ≠ 0 ∧ k ≠ 1 ∧ k ≠ 2) := by grind
  unfold areCredentialsCompatible Rejects
  have refl : ∀ x ∈ extractKycStatus a, kycStatusesCompatible x x = true := by
    simp [kycStatusesCompatible]
  rw [if_neg kyc, ite_eq_right_iff, compatibleBy_iff refl]
  unfold isKycStatusClaim extractKycStatus
  cases a.head? with
  | none => simp
  | some j =>
    cases b.head? with
    | none => simp
    | some k =>
      rcases statuses j with rfl | rfl | rfl | other <;>
        rcases statuses k with rfl | rfl | rfl | also <;>
        simp_all [kycStatusesCompatible]

theorem areCredentialsCompatible_iff {a b : Bytes} :
    areCredentialsCompatible a b = true ↔ ¬ Flagged a b := by
  unfold Flagged DisjointAges Rejected
  by_cases ages : isAgeClaim a = true ∧ isAgeClaim b = true
  · have ordered : ∀ range ∈ parseAgeClaim a, ageRangesCompatible range range = true := by
      intro range parsed
      have age := ages.1
      rw [isAgeClaim, Option.mem_def.mp parsed] at age
      simp [ageRangesCompatible] at age ⊢
      omega
    rw [areCredentialsCompatible, if_pos ages, compatibleBy_iff ordered]
    simp [ages, ageRangesCompatible, Disjoint]
  · simp only [ages, false_and, not_false_eq_true, true_and, false_or]
    exact rejects_iff ages

/-! ### Contract and rules -/

theorem Rejects.eq {a b : Bytes} (rejects : Rejects a b) (short : ¬ (1 < a.length ∨ 1 < b.length)) :
    a = [2] ∧ (b = [0] ∨ b = [1]) := by
  unfold Rejects at rejects
  rcases a with _ | ⟨x, _ | _⟩ <;> rcases b with _ | ⟨y, _ | _⟩ <;> simp_all

theorem conflict_statuses {x y : UInt8} (statuses : x ≤ 2 ∧ y ≤ 2 ∧ x ≠ y) : Conflict [x] [y] :=
  .inr ⟨x, statuses.1, y, statuses.2.1, rfl, rfl, statuses.2.2⟩

/-- Claims that are flagged and not misread conflict. -/
theorem Flagged.conflict {a b : Bytes} (flagged : Flagged a b) (read : ¬ Misread a b) :
    Conflict a b := by
  rcases flagged with ages | rejected
  · have short := fun long => read (.inl ⟨ages, long⟩)
    obtain ⟨⟨first, second⟩, range, parsed, other, also, disjoint⟩ := ages
    have exactly {claim : Bytes} {range : Nat × Nat} (parsed : range ∈ parseAgeClaim claim)
        (short : ¬ 8 < claim.length) : claim.length = 8 := by
      unfold parseAgeClaim at parsed
      split at parsed
      · cases parsed
      · omega
    refine .inl ⟨range, ?_, other, ?_, disjoint⟩
    · rwa [ageRange, if_pos ⟨exactly parsed fun long => short (.inl long), first⟩]
    · rwa [ageRange, if_pos ⟨exactly also fun long => short (.inr long), second⟩]
  · have short := fun long => read (.inr ⟨rejected, long⟩)
    rcases rejected.2 with rejects | rejects
    · obtain ⟨rfl, rfl | rfl⟩ := rejects.eq short <;> exact conflict_statuses (by decide)
    · obtain ⟨rfl, rfl | rfl⟩ := rejects.eq (short ∘ Or.symm) <;>
        exact conflict_statuses (by decide)

/-- A conflict is flagged, except a pending beside an approved status. -/
theorem Conflict.flagged {a b : Bytes} (conflict : Conflict a b) :
    Flagged a b ∨ a = [0] ∧ b = [1] ∨ a = [1] ∧ b = [0] := by
  rcases conflict with ⟨range, parsed, other, also, disjoint⟩ | ⟨x, small, y, less, rfl, rfl, differ⟩
  · have age {claim : Bytes} {range : Nat × Nat} (parsed : range ∈ ageRange claim) :
        isAgeClaim claim = true ∧ range ∈ parseAgeClaim claim := by
      unfold ageRange at parsed
      split at parsed
      · rename_i age
        exact ⟨age.2, parsed⟩
      · cases parsed
    exact .inl (.inl ⟨⟨(age parsed).1, (age also).1⟩, range, (age parsed).2, other, (age also).2,
      disjoint⟩)
  · have statuses (k : UInt8) (small : k ≤ 2) : k = 0 ∨ k = 1 ∨ k = 2 := by grind
    rcases statuses x small with rfl | rfl | rfl <;> rcases statuses y less with rfl | rfl | rfl <;>
      simp_all [Flagged, Rejected, Rejects, isAgeClaim, parseAgeClaim]

theorem Misread.flagged {a b : Bytes} (misread : Misread a b) : Flagged a b :=
  misread.imp And.left And.left

theorem pairwise_either {R : Bytes → Bytes → Prop} (pairwise : claims.Pairwise R) {a b : Bytes}
    (first : a ∈ claims) (second : b ∈ claims) (differ : a ≠ b) : R a b ∨ R b a := by
  have : Std.Symm fun a b => R a b ∨ R b a := ⟨fun _ _ => Or.symm⟩
  have either : claims.Pairwise fun a b => R a b ∨ R b a := pairwise.imp Or.inl
  exact either.forall first second differ

/-- What the contract and the rules say of a batch, by the bytes of its claims. -/
theorem agree_iff : ((claims.Pairwise fun a b => ¬ Flagged a b) ↔
    claims.Pairwise fun a b => ¬ Conflict a b) ↔ Agree claims := by
  constructor
  · intro same
    refine ⟨fun pending approved => ?_, fun misread conflicts => misread ?_⟩
    · by_contra! none
      have spared : claims.Pairwise fun a b => ¬ Flagged a b :=
        none.2.imp_of_mem fun first second apart =>
        not_or.mpr ⟨apart, fun rejected => rejected.2.elim (none.1 _ first ·.1) (none.1 _ second ·.1)⟩
      exact (pairwise_either (same.mp spared) pending approved (by decide)).elim
        (· (conflict_statuses (by decide))) (· (conflict_statuses (by decide)))
    · exact (same.mpr conflicts).imp fun spared misread => spared misread.flagged
  · intro agree
    constructor
    · intro spared
      by_cases both : [0] ∈ claims ∧ [1] ∈ claims
      · rcases agree.pending both.1 both.2 with ⟨claim, given, starts⟩ | apart
        · have rejects : Rejects claim [0] := ⟨starts, .inl rfl⟩
          have differ : claim ≠ [0] := by
            rintro rfl
            cases starts
          exact ((pairwise_either spared given both.1 differ).elim
            (· (.inr ⟨fun ages => Bool.noConfusion ages.2, .inl rejects⟩))
            (· (.inr ⟨fun ages => Bool.noConfusion ages.1, .inr rejects⟩))).elim
        · exact (apart (spared.imp fun spared ages => spared (.inl ages))).elim
      · refine spared.imp_of_mem fun first second spared conflict => ?_
        rcases conflict.flagged with flagged | ⟨rfl, rfl⟩ | ⟨rfl, rfl⟩
        · exact spared flagged
        · exact both ⟨first, second⟩
        · exact both ⟨second, first⟩
    · intro conflicts
      have read := not_imp_not.mp agree.misread conflicts
      exact (read.and conflicts).imp fun spared flagged => spared.2 (flagged.conflict spared.1)

theorem mem_consistencyPairs {i j : Nat} {a b : Bytes} : (i, a, j, b) ∈ consistencyPairs claims ↔
    i < j ∧ claims[i]? = some a ∧ claims[j]? = some b := by
  simp only [consistencyPairs, mem_flatMap, mem_range, mem_filterMap, mem_range'_1, bind, pure,
    Option.bind_eq_some_iff, Option.some.injEq, Prod.mk.injEq]
  constructor
  · rintro ⟨i, -, j, after, a, first, b, second, rfl, rfl, rfl, rfl⟩
    exact ⟨by omega, first, second⟩
  · rintro ⟨less, first, second⟩
    obtain ⟨inside, -⟩ := List.getElem?_eq_some_iff.mp second
    exact ⟨i, by omega, j, by omega, a, first, b, second, rfl, rfl, rfl, rfl⟩

theorem verifyBatchConsistency_iff : (verifyBatchConsistency (consistencyPairs claims)).isOk = true ↔
    2 ≤ claims.length ∧ claims.Pairwise fun a b => ¬ Flagged a b := by
  have some : consistencyPairs claims ≠ [] ↔ 2 ≤ claims.length := by
    constructor
    · intro some
      obtain ⟨⟨i, a, j, b⟩, listed⟩ := exists_mem_of_ne_nil _ some
      obtain ⟨less, -, second⟩ := mem_consistencyPairs.mp listed
      obtain ⟨inside, -⟩ := List.getElem?_eq_some_iff.mp second
      omega
    · intro two
      have listed : (0, claims[0], 1, claims[1]) ∈ consistencyPairs claims :=
        mem_consistencyPairs.mpr (by simp)
      exact ne_nil_of_mem listed
  have all : ((consistencyPairs claims).all fun (_, a, _, b) => areCredentialsCompatible a b) = true ↔
      claims.Pairwise fun a b => ¬ Flagged a b := by
    simp only [all_eq_true, areCredentialsCompatible_iff, pairwise_iff_getElem]
    constructor
    · intro spared i j inside within less
      exact spared (i, claims[i], j, claims[j]) (mem_consistencyPairs.mpr (by simp [less]))
    · rintro spared ⟨i, a, j, b⟩ listed
      obtain ⟨less, first, second⟩ := mem_consistencyPairs.mp listed
      obtain ⟨inside, rfl⟩ := List.getElem?_eq_some_iff.mp first
      obtain ⟨within, rfl⟩ := List.getElem?_eq_some_iff.mp second
      exact spared i j inside within less
  rw [← some, ← all, verifyBatchConsistency]
  split
  · rename_i empty
    exact iff_of_false Bool.false_ne_true fun given => given.1 empty
  · rename_i given
    split
    · rename_i spared
      exact iff_of_true rfl ⟨given, spared⟩
    · rename_i flagged
      exact iff_of_false Bool.false_ne_true fun spared => flagged spared.2

variable (sha256 env s) in
theorem verifyEach_succeeds {pairs : List (Bytes × Bytes)}
    (admissible : ∀ pair ∈ pairs, Admissible pair.1 pair.2) : ∀ {t : VerifierState},
    t.attestation = s.attestation → t.oracle = s.oracle →
    (verifyEach sha256 env pairs).succeeds t fun result _ =>
      (result = true ↔ ∀ pair ∈ pairs, Verifies sha256 env s pair) := by
  induction pairs with
  | nil => simp [verifyEach]
  | cons pair rest ih =>
    intro t attestation oracle
    obtain ⟨here, later⟩ := forall_mem_cons.mp admissible
    obtain ⟨verdict, u, ran, answer, keptAttestation, keptOracle⟩ :=
      @verifyClaim_succeeds sha256 t env _ _ here
    obtain ⟨single, v, alone, same, -⟩ := @verifyClaim_succeeds sha256 s env _ _ here
    rw [attestation, oracle, ← same] at answer
    subst answer
    have verifies : Verifies sha256 env s pair ↔ verdict = true := by
      simp [Verifies, Tx.succeeds, alone]
    rw [verifyEach, succeeds_bind]
    refine ⟨verdict, u, ran, ?_⟩
    rw [forall_mem_cons, verifies]
    cases verdict with
    | true => simpa using ih later (keptAttestation.trans attestation) (keptOracle.trans oracle)
    | false => simp

/-- **When the answer is the one of the rules.** For every batch of admissible size. -/
theorem consistent_iff (lengths : proofs.length = claims.length) (given : proofs ≠ [])
    (size : proofs.length ≤ maxCredentialBatchSize)
    (admissible : ∀ pair ∈ proofs.zip claims, Admissible pair.1 pair.2) :
    Consistent sha256 env proofs claims s ↔
      ((∀ pair ∈ proofs.zip claims, Verifies sha256 env s pair) →
        2 ≤ claims.length ∧ Agree claims) := by
  obtain ⟨verified, t, ran, verdict⟩ := verifyEach_succeeds sha256 env s admissible rfl rfl
  have single : ¬ 2 ≤ claims.length → claims.Pairwise fun a b => ¬ Conflict a b := by
    intro few
    rw [pairwise_iff_getElem]
    omega
  have answer Q : (verifyCredentialsConsistent sha256 env proofs claims).succeeds s Q ↔
      Q (verified && (verifyBatchConsistency (consistencyPairs claims)).isOk) t := by
    have each R : (verifyEach sha256 env (proofs.zip claims)).succeeds s R ↔ R verified t := by
      simp [Tx.succeeds, ran]
    simp only [verifyCredentialsConsistent, require, succeeds_bind, succeeds_ensure, lengths, given,
      lengths ▸ size, ne_eq, not_false_eq_true, true_and, each]
    cases verified <;> simp
  rw [Consistent, answer, ← verdict, ← agree_iff, Bool.and_eq_true, verifyBatchConsistency_iff]
  by_cases two : 2 ≤ claims.length
  · simp only [two, true_and]
    tauto
  · simp [two, single two]

def attestedAll : VerifierState where
  oracle _ := true
  attestation _ := some ⟨1, ⟨3⟩, 0⟩

/-- A pending, an approved and a rejected status: the rejection is what the contract finds. -/
theorem consistent_rejected :
    Consistent id ⟨⟨0⟩, 0, []⟩ [[7], [7], [7]] [[0], [1], [2]] attestedAll := by
  refine Iff.mpr (consistent_iff (by rfl) (by decide) (by decide) ?_) fun _ => ⟨by decide, ?_⟩
  · have small : Admissible [7] [0] ∧ Admissible [7] [1] ∧ Admissible [7] [2] := by
      refine ⟨?_, ?_, ?_⟩ <;> exact ⟨by decide, by decide, by decide, by decide⟩
    simpa using small
  · have conflict : Conflict [0] [1] := conflict_statuses (by decide)
    exact ⟨fun _ _ => .inl ⟨[2], by decide, rfl⟩, fun _ spared => by simp [conflict] at spared⟩

/-- **A pending and an approved status pass together.** -/
theorem pending_with_approved : ¬ Consistent id ⟨⟨0⟩, 0, []⟩ [[7], [7]] [[0], [1]] attestedAll := by
  rintro ⟨result, t, ran, answer⟩
  cases ran
  have conflict : Conflict [0] [1] := conflict_statuses (by decide)
  have spared := (answer.mp rfl).2
  simp [conflict] at spared

end EthosContracts.ZkVerifier
