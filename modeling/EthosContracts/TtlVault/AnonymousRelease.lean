/-
**Anonymous releases: who collects what was committed to a hidden beneficiary.**

`commit_beneficiary` stores the hash of the bytes of an address. `reveal_beneficiary` compares the
hash of its argument `proof` with that commitment and pays another argument, `claim`.

`pays_committed_iff` — in every run, reveals pay only the committed address exactly if every `proof`
consists of the bytes of its `claim`; the contract does not ask for this. The bytes of an address
are a parameter, `encode`.
-/

import EthosContracts.TtlVault.AfterRelease

namespace EthosContracts.TtlVault

open Lib List

/-! ### The binding -/

/-- **An anonymous release pays only the committed beneficiary**: everybody it pays is an address
whose bytes hash to the commitment. -/
def PaysCommitted (encode : Address → Bytes) (event : VaultEvent) : Prop :=
  ∀ id proof claim, event.input.call = .revealBeneficiary id proof claim →
    ∀ entry ∈ event.before.beneficiaries.commitment id, ∀ payout ∈ newPayouts event,
      event.input.env.sha256 (encode payout.payee) = entry.commitment

/-- A reveal whose proof consists of the bytes of the claimed address. -/
def ProvesClaim (encode : Address → Bytes) : Call → Prop
  | .revealBeneficiary _ proof claim => encode claim = proof
  | _ => True

section Reveal

variable {env : Env} {id : VaultId} {proof : Bytes} {claim : Address} {s : State}

theorem revealBeneficiary_pays : (revealBeneficiary env id proof claim).wp s fun _ t =>
      ∃ entry vault, s.beneficiaries.commitment id = some entry ∧
        s.vaults id = some vault ∧ env.sha256 proof = entry.commitment ∧
        t.payouts = s.payouts ++ [⟨id, vault.tokenAddress, claim, vault.balance⟩] := by
  simp only [revealBeneficiary, wp_rules]
  intro entry committed _ vault stored _
  refine (isExpired_readonly env id).wp fun expired _ _ matched => ?_
  intro _ after _
  exact ⟨entry, vault, committed, stored, matched, rfl⟩

end Reveal

section Runs

variable {host : Host} {encode : Address → Bytes} {start s : State} {history : History}

theorem reveal_bound_iff {event : VaultEvent} {id : VaultId} {proof : Bytes}
    {claim : Address} (injective : Function.Injective event.input.env.sha256)
    (ran : revealBeneficiary event.input.env id proof claim event.before = .ok ((), event.after)) :
    (∀ entry ∈ event.before.beneficiaries.commitment id, ∀ payout ∈ newPayouts event,
      event.input.env.sha256 (encode payout.payee) = entry.commitment) ↔ encode claim = proof := by
  obtain ⟨entry, vault, committed, -, matched, paid⟩ := revealBeneficiary_pays () event.after ran
  have new : newPayouts event = [⟨id, vault.tokenAddress, claim, vault.balance⟩] := by
    rw [newPayouts, paid, drop_left]
  simp only [new, mem_singleton, forall_eq, committed, Option.mem_some_iff, forall_eq']
  rw [← matched]
  exact injective.eq_iff

/-- **When anonymous releases pay only the committed beneficiary.** In every run: exactly if every
reveal is made with the bytes of the address that it claims. -/
theorem pays_committed_iff (injective : Function.Injective host.sha256)
    (run : ContractRun host start history s) :
    (∀ event ∈ history, PaysCommitted encode event) ↔
      ∀ event ∈ history, ProvesClaim encode event.input.call := by
  refine forall₂_congr fun event member => ?_
  obtain ⟨rfl, ran⟩ := run.stepped event member
  constructor
  · intro pays
    unfold ProvesClaim
    split
    · rename_i vaultId proof claim called
      rw [called] at ran
      exact (reveal_bound_iff injective ran).mp (pays vaultId proof claim called)
    · trivial
  · intro proves vaultId proof claim called
    rw [called] at proves ran
    exact (reveal_bound_iff injective ran).mpr proves

end Runs

/-! ### A proof that somebody else has seen -/

def unary (address : Address) : Bytes := replicate address.toNat 0

theorem unary_injective : Function.Injective unary := by
  intro first second same
  have lengths := congrArg length same
  simp only [unary, length_replicate] at lengths
  cases first
  cases second
  exact congrArg Address.mk lengths

def hiddenBeneficiary : Scenario :=
  [(1000, ⟨3⟩, .createVault ⟨3⟩ ⟨5⟩ 600 none), (1001, ⟨3⟩, .deposit 1 ⟨3⟩ 100),
    (1002, ⟨3⟩, .record (.commitBeneficiary 1 ⟨3⟩ (unary ⟨4⟩)))]

def revealedFor (claim : Address) : VaultEvent :=
  nextEvent fundedState (plainInputs hiddenBeneficiary)
    ⟨plainEnv 2000 [], .revealBeneficiary 1 (unary ⟨4⟩) claim⟩

theorem revealedFor_run {claim : Address}
    (ok : (exec (plainEnv 2000 []) (.revealBeneficiary 1 (unary ⟨4⟩) claim)
      (played hiddenBeneficiary).2).isOk = true) :
    PlainRun ((played hiddenBeneficiary).1 ++ [revealedFor claim]) (revealedFor claim).after :=
  .snoc (plainInputs_run _) ⟨rfl, Tx.eq_ok_after ok⟩

/-- The committed beneficiary collects. -/
theorem pays_committed_hiddenBeneficiary :
    newPayouts (revealedFor ⟨4⟩) = [⟨1, ⟨1⟩, ⟨4⟩, 100⟩] ∧
      ∀ event ∈ (played hiddenBeneficiary).1 ++ [revealedFor ⟨4⟩], PaysCommitted unary event := by
  have plain : ∀ entry ∈ hiddenBeneficiary, ProvesClaim unary entry.2.2 := by
    simp [hiddenBeneficiary, ProvesClaim]
  refine ⟨by decide +kernel, (pays_committed_iff (fun _ _ same => same)
    (revealedFor_run (by decide +kernel))).mpr fun event member => ?_⟩
  rcases mem_append.mp member with earlier | last
  · obtain ⟨entry, listed, same⟩ := plainInputs_event earlier
    rw [same]
    exact plain entry listed
  · rw [mem_singleton.mp last]
    rfl

/-- With the same proof address `9` collects the 100 that are committed to `4`. -/
theorem proof_redirected :
    PlainRun
        ((played hiddenBeneficiary).1 ++ [revealedFor ⟨9⟩])
        (revealedFor ⟨9⟩).after ∧
      newPayouts (revealedFor ⟨9⟩) = [⟨1, ⟨1⟩, ⟨9⟩, 100⟩] ∧
      ¬ PaysCommitted unary (revealedFor ⟨9⟩) := by
  have paid : newPayouts (revealedFor ⟨9⟩) = [⟨1, ⟨1⟩, ⟨9⟩, 100⟩] := by decide +kernel
  have committed : ((revealedFor ⟨9⟩).before.beneficiaries.commitment 1).map (·.commitment) =
      some (unary ⟨4⟩) := by decide +kernel
  refine ⟨revealedFor_run (by decide +kernel), paid, fun pays => ?_⟩
  obtain ⟨entry, stored, hash⟩ := Option.map_eq_some_iff.mp committed
  have bound := pays 1 (unary ⟨4⟩) ⟨9⟩ rfl entry stored ⟨1, ⟨1⟩, ⟨9⟩, 100⟩
    (by rw [paid]; exact mem_singleton.mpr rfl)
  rw [hash] at bound
  exact absurd (unary_injective bound) (by decide)

end EthosContracts.TtlVault
