/-
**Recovery codes: who can take a token with them.**

`generate_sbt_recovery_codes` stores the hashes of new codes for a token, and
`recover_sbt_with_recovery_code` gives the token to whoever presents one of the codes. Neither a
transfer nor a recovery touches the codes that are left.
-/

import EthosContracts.Sbt.Token

namespace EthosContracts.Sbt

open Lib Soroban List
open TtlVault (Address Bytes Hash)

/-- The token has this owner before and after every event. -/
def OwnedThroughout (sbtId : Nat) (owner : Address) (events : List SbtEvent) : Prop :=
  ∀ event ∈ events, event.before.owner sbtId = some owner ∧ event.after.owner sbtId = some owner

/-- **A code was issued to an owner**, who authorised the call and has owned the token ever since.
-/
def IssuedByOwner (earlier : List SbtEvent) (sbtId : Nat) (code : Bytes) (owner : Address) : Prop :=
  ∃ before issue since codes, earlier = before ++ issue :: since ∧
    issue.input.call.generates = some (sbtId, codes) ∧ code ∈ codes ∧
    owner ∈ issue.input.env.signers ∧ OwnedThroughout sbtId owner (issue :: since)

/-- **A former holder cannot take a token back**: a recovery that changes the owner redeems a code
that was issued to the owner before it. -/
def HolderRecovers (earlier : List SbtEvent) (event : SbtEvent) : Prop :=
  ∀ sbtId code newHolder owner,
    event.input.call = .recoverSbtWithRecoveryCode sbtId code newHolder →
    event.before.owner sbtId = some owner → event.after.owner sbtId ≠ some owner →
    IssuedByOwner earlier sbtId code owner

/-- The last recovery codes that were generated for the token. -/
structure LastIssue (earlier : List SbtEvent) (sbtId : Nat) (codes : List Bytes)
    (since : List SbtEvent) : Prop where
  issued : ∃ before issue, earlier = before ++ issue :: since ∧
    issue.input.call.generates = some (sbtId, codes)
  last : ∀ event ∈ since, ∀ others, event.input.call.generates ≠ some (sbtId, others)

/-- A recovery that changes the owner comes with no change of the owner since the last codes. -/
def CodesCurrent (earlier : List SbtEvent) (event : SbtEvent) : Prop :=
  ∀ sbtId code newHolder owner,
    event.input.call = .recoverSbtWithRecoveryCode sbtId code newHolder →
    event.before.owner sbtId = some owner → event.after.owner sbtId ≠ some owner →
    ∀ codes since, LastIssue earlier sbtId codes since →
      ∀ other ∈ since, other.after.owner sbtId = other.before.owner sbtId

section Codes

variable {functions : Functions} {history earlier : List SbtEvent} {s t : SbtState}
  {input : SbtInput}

/-- The stored codes are among the last ones that were generated. -/
def LastCodes (functions : Functions) (history : List SbtEvent) (s : SbtState) : Prop :=
  ∀ sbtId hashes, s.recoveryCodes sbtId = some hashes →
    ∃ codes since, LastIssue history sbtId codes since ∧ hashes ⊆ codes.map functions.sha256

variable {event : SbtEvent} {sbtId : Nat}

theorem LastIssue.later {codes : List Bytes}
    {since : List SbtEvent} (last : LastIssue history sbtId codes since)
    (silent : ∀ others, event.input.call.generates ≠ some (sbtId, others)) :
    LastIssue (history ++ [event]) sbtId codes (since ++ [event]) := by
  obtain ⟨⟨before, issue, rfl, call⟩, quiet⟩ := last
  exact ⟨⟨before, issue, by simp, call⟩, forall_mem_concat.mpr ⟨quiet, silent⟩⟩

theorem LastCodes.step (lastCodes : LastCodes functions history s)
    (stepped : SbtStep functions input s t) :
    LastCodes functions (history ++ [⟨s, input, t⟩]) t := by
  intro sbtId hashes stored
  rcases stepped.codes sbtId hashes stored with ⟨codes, call, rfl⟩ | ⟨silent, old, kept, fewer⟩
  · exact ⟨codes, [], ⟨⟨history, _, rfl, call⟩, by simp⟩, List.Subset.refl _⟩
  · obtain ⟨codes, since, last, among⟩ := lastCodes sbtId old kept
    exact ⟨codes, _, last.later silent, List.Subset.trans fewer among⟩

theorem run_lastCodes (run : SbtRun functions history s) : LastCodes functions history s :=
  run.history_invariant (LastCodes functions) (by simp [LastCodes]) fun _ _ _ _ _ lastCodes ran =>
    lastCodes.step (execSbt_step () _ ran)

theorem redeemed_last {code : Bytes} {newHolder : Address}
    (injective : Function.Injective functions.sha256)
    (lastCodes : LastCodes functions earlier event.before)
    (stepped : SbtStep functions event.input event.before event.after)
    (call : event.input.call = .recoverSbtWithRecoveryCode sbtId code newHolder)
    (changed : event.after.owner sbtId ≠ event.before.owner sbtId) :
    ∃ codes since, LastIssue earlier sbtId codes since ∧ code ∈ codes := by
  have after := stepped.owners sbtId
  rw [call, SbtCall.destination] at after
  split at after
  · rename_i known
    obtain ⟨hashes, stored, member⟩ := (Option.any_eq_true _ _).mp known.2
    obtain ⟨codes, since, last, among⟩ := lastCodes sbtId hashes stored
    obtain ⟨same, listed, equal⟩ := mem_map.mp (among (of_decide_eq_true member))
    rw [← injective equal]
    exact ⟨codes, since, last, listed⟩
  · exact absurd after changed

end Codes

section Owners

variable {functions : Functions} {history earlier : List SbtEvent} {start s : SbtState}

variable {sbtId : Nat} {owner : Address} {codes : List Bytes} {since : List SbtEvent}

theorem owner_throughout (run : Run (Executes (execSbt functions)) start history s)
    (same : ∀ event ∈ history, event.after.owner sbtId = event.before.owner sbtId)
    (now : s.owner sbtId = some owner) :
    start.owner sbtId = some owner ∧ OwnedThroughout sbtId owner history := by
  induction run with
  | nil => exact ⟨now, nofun⟩
  | @snoc front r t input run ran ih =>
    have last := same _ mem_concat_self
    have before : r.owner sbtId = some owner := last.symm.trans now
    obtain ⟨first, all⟩ := ih (forall_mem_concat.mp same).1 before
    exact ⟨first, forall_mem_concat.mpr ⟨all, before, now⟩⟩

theorem generates_owner {event : SbtEvent}
    (stepped : SbtStep functions event.input event.before event.after)
    (call : event.input.call.generates = some (sbtId, codes)) :
    event.after.owner sbtId = event.before.owner sbtId := by
  rw [stepped.owners]
  generalize event.input.call = given at call
  cases given <;> first | rfl | cases call

theorem LastIssue.since_subset {others : List Bytes}
    {before after : List SbtEvent} {issue : SbtEvent}
    (last : LastIssue earlier sbtId codes since) (whole : earlier = before ++ issue :: after)
    (call : issue.input.call.generates = some (sbtId, others)) : since ⊆ after := by
  obtain ⟨⟨front, final, split, -⟩, quiet⟩ := last
  rw [whole] at split
  rcases append_eq_append_iff.mp split with ⟨middle, -, tail⟩ | ⟨middle, -, tail⟩
  · -- the last codes come later, or these are the last codes
    cases middle with
    | nil =>
      obtain ⟨-, rfl⟩ := List.cons.inj tail
      exact List.Subset.refl _
    | cons =>
      obtain ⟨-, rfl⟩ := List.cons.inj tail
      exact fun event member => mem_append_right _ (mem_cons_of_mem _ member)
  · cases middle with
    | nil =>
      obtain ⟨-, rfl⟩ := List.cons.inj tail
      exact List.Subset.refl _
    | cons =>
      obtain ⟨-, rfl⟩ := List.cons.inj tail
      exact absurd call (quiet issue mem_append_cons_self others)

theorem LastIssue.issuedByOwner {code : Bytes} (run : SbtRun functions earlier s)
    (last : LastIssue earlier sbtId codes since) (member : code ∈ codes)
    (now : s.owner sbtId = some owner)
    (same : ∀ other ∈ since, other.after.owner sbtId = other.before.owner sbtId) :
    IssuedByOwner earlier sbtId code owner := by
  obtain ⟨before, issue, whole, call⟩ := last.issued
  obtain ⟨-, stepped, rest⟩ := run_at run whole
  obtain ⟨after, owned⟩ := owner_throughout rest same now
  have unchanged := generates_owner stepped call
  obtain ⟨signer, held, signed⟩ := stepped.authorised sbtId codes call
  have first : issue.before.owner sbtId = some owner := unchanged.symm.trans after
  cases held.symm.trans first
  exact ⟨before, issue, since, codes, whole, call, member, signed,
    forall_mem_cons.mpr ⟨⟨first, after⟩, owned⟩⟩

/-- **When a former holder cannot take a token back.** In every run: exactly if every recovery that
changes the owner comes with no change of the owner since the last codes of the token. -/
theorem holderRecovers_iff (injective : Function.Injective functions.sha256)
    (run : SbtRun functions history s) :
    (∀ earlier event later, history = earlier ++ event :: later → HolderRecovers earlier event) ↔
      ∀ earlier event later, history = earlier ++ event :: later → CodesCurrent earlier event := by
  refine forall₄_congr fun earlier event later whole => ?_
  obtain ⟨first, stepped, -⟩ := run_at run whole
  constructor
  · intro recovers sbtId code newHolder owner call owned changed codes since last other member
    obtain ⟨before, issue, after, others, split, called, -, -, throughout⟩ :=
      recovers sbtId code newHolder owner call owned changed
    have listed := last.since_subset split called member
    obtain ⟨old, new⟩ := throughout other (mem_cons_of_mem _ listed)
    exact new.trans old.symm
  · intro current sbtId code newHolder owner call owned changed
    obtain ⟨codes, since, last, member⟩ :=
      redeemed_last injective (run_lastCodes first) stepped call (owned ▸ changed)
    exact last.issuedByOwner first member owned
      (current sbtId code newHolder owner call owned changed codes since last)

end Owners

/-! ### Two holders -/

def signedCalls (calls : List (Address × SbtCall)) : List SbtInput :=
  calls.mapIdx fun index (signer, call) => ⟨⟨⟨⟨0⟩, index + 1, [signer]⟩, fun _ _ => none⟩, call⟩

def plainFunctions : Functions := ⟨id, id, fun _ => false⟩

def exampleCodes (index : Fin recoveryCodeCount) : Bytes := [.ofNat (index.val + 1)]

def codePresented : List SbtInput :=
  signedCalls [(⟨2⟩, .initializeContract ⟨2⟩), (⟨2⟩, .mint ⟨3⟩ [7]),
    (⟨3⟩, .generateSbtRecoveryCodes 0 exampleCodes), (⟨4⟩, .recoverSbtWithRecoveryCode 0 [1] ⟨4⟩)]

theorem holderRecovers_codePresented :
    (play (execSbt plainFunctions) {} codePresented).2.owner 0 = some ⟨4⟩ ∧
      ∀ earlier event later,
        (play (execSbt plainFunctions) {} codePresented).1 = earlier ++ event :: later →
          HolderRecovers earlier event := by
  have inputs : (play (execSbt plainFunctions) {} codePresented).1.map Event.input = codePresented :=
    play_all (by decide +kernel)
  refine ⟨by decide +kernel,
    (holderRecovers_iff (fun _ _ same => same) (play_executes _ _ _)).mpr ?_⟩
  intro earlier event later whole sbtId code newHolder owner call owned changed codes since last
  obtain ⟨⟨before, issue, rfl, called⟩, -⟩ := last
  have calls := congrArg (List.map SbtInput.call) inputs
  rw [whole] at calls
  -- the third call is the one that generates codes, and the fourth follows it
  rcases before with _ | ⟨_, _ | ⟨_, _ | ⟨_, before⟩⟩⟩ <;>
    simp [codePresented, signedCalls, append_eq_cons_iff] at calls
  · rw [calls.1] at called
    cases called
  · rw [calls.2.1] at called
    cases called
  · rw [calls.2.2.2.1]
    exact forall_mem_nil _

def codesThenTransfer : List SbtInput :=
  signedCalls [(⟨2⟩, .initializeContract ⟨2⟩), (⟨2⟩, .mint ⟨3⟩ [7]),
    (⟨3⟩, .generateSbtRecoveryCodes 0 exampleCodes),
    (⟨3⟩, .batchTransferSbtConditional [0] [⟨⟨4⟩, .always⟩])]

def returnInput : SbtInput :=
  ⟨⟨⟨⟨0⟩, 5, [⟨3⟩]⟩, fun _ _ => none⟩, .recoverSbtWithRecoveryCode 0 [1] ⟨3⟩⟩

def returnEvent : SbtEvent := playNext (execSbt plainFunctions) {} codesThenTransfer returnInput

/-- **A former holder returns**: `4` owns the token, has authorised nothing, and loses it to `3`. -/
theorem former_holder_returns :
    SbtRun plainFunctions ((play (execSbt plainFunctions) {} codesThenTransfer).1 ++ [returnEvent])
        returnEvent.after ∧
      returnEvent.before.owner 0 = some ⟨4⟩ ∧ returnEvent.after.owner 0 = some ⟨3⟩ ∧
      ¬ HolderRecovers (play (execSbt plainFunctions) {} codesThenTransfer).1 returnEvent := by
  have held : returnEvent.before.owner 0 = some ⟨4⟩ := by decide +kernel
  have lost : returnEvent.after.owner 0 = some ⟨3⟩ := by decide +kernel
  have unsigned : ∀ event ∈ (play (execSbt plainFunctions) {} codesThenTransfer).1,
      ⟨4⟩ ∉ event.input.env.signers := by decide +kernel
  refine ⟨.snoc (play_executes _ _ _) rfl, held, lost, fun recovers => ?_⟩
  obtain ⟨before, issue, since, codes, split, -, -, signed, -⟩ :=
    recovers 0 [1] ⟨3⟩ ⟨4⟩ rfl held (by rw [lost]; decide)
  exact unsigned issue (split ▸ mem_append_cons_self) signed

end EthosContracts.Sbt
