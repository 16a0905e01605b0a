/-
**Masked proofs** (`mask_proof_fields`).

The listed offsets go into a `u32` bitmask, and a loop over the proof clears the bytes whose bit is
set. The loop shifts by the position of every byte, and the shift by 32 fails.
-/

import Mathlib.Data.Nat.Bitwise
import EthosContracts.ZkVerifier.Verifier

namespace EthosContracts.ZkVerifier

open Lib Soroban Function List
open TtlVault (Bytes Hash)

def maxExternalFormatSize : Nat := 8192

/-- `1 << shift` in a `u32`, checked. -/
def shiftedOne (shift : Nat) : VerifierTx Nat := do
  ensure (shift < 32) .overflow
  pure (2 ^ shift)

def fieldMask (proof : Bytes) : List Nat → Nat → VerifierTx Nat
  | [], mask => pure mask
  | field :: rest, mask => do
    require (field < 32 ∧ field < proof.length) .invalidMaskSpec
    let bit ← shiftedOne field
    fieldMask proof rest (mask ||| bit)

/-- The loop over the proof, from a position on. -/
def maskBytes (mask : Nat) : Nat → Bytes → Bytes → VerifierTx Bytes
  | _, [], masked => pure masked
  | i, byte :: rest, masked => do
    let bit ← shiftedOne i
    maskBytes mask (i + 1) rest (masked ++ [if mask &&& bit ≠ 0 then 0 else byte])

def toLeBytes (n : Nat) : Bytes :=
  [n, n / 2 ^ 8, n / 2 ^ 16, n / 2 ^ 24].map UInt8.ofNat

def maskedHeader : Bytes := [77, 65, 83, 75, 69, 68, 95, 86, 49]

def maskProofFields (sha256 : Bytes → Hash) (proof : Bytes) (fieldsToMask : List Nat) :
    VerifierTx Bytes := do
  require (proof ≠ []) .emptyProof
  require (proof.length ≤ maxProofSize) .proofTooLarge
  require (fieldsToMask ≠ []) .invalidMaskSpec
  let mask ← fieldMask proof fieldsToMask 0
  let masked ← maskBytes mask 0 proof (maskedHeader ++ toLeBytes mask)
  require (masked.length ≤ maxExternalFormatSize) .externalFormatTooLarge
  write fun s => { s with
    maskingConfig := update s.maskingConfig (sha256 proof) (some ⟨sha256 (toLeBytes mask), 1⟩) }
  pure masked

/-- **The proof is masked**, and another one that differs at masked offsets only gives the same. -/
def Masks (sha256 : Bytes → Hash) (proof : Bytes) (fields : List Nat) (s : VerifierState) : Prop :=
  (maskProofFields sha256 proof fields).succeeds s fun masked _ =>
    (∃ mask < 2 ^ 32, (∀ i, mask.testBit i = true ↔ i ∈ fields) ∧
      masked = maskedHeader ++ toLeBytes mask ++
        proof.mapIdx fun i byte => if i ∈ fields then 0 else byte) ∧
    ∀ other : Bytes, other.length = proof.length → (∀ i ∉ fields, other[i]? = proof[i]?) →
      (maskProofFields sha256 other fields).succeeds s fun same _ => same = masked

/-- A proof and offsets that `mask_proof_fields` admits. -/
structure Maskable (proof : Bytes) (fields : List Nat) : Prop where
  given : proof ≠ []
  size : proof.length ≤ maxProofSize
  some : fields ≠ []
  inside : ∀ field ∈ fields, field < 32 ∧ field < proof.length

section Loops

variable {proof : Bytes} {fields : List Nat} {s : VerifierState} {Q : Nat → VerifierState → Prop}

def bitsOf (fields : List Nat) (mask : Nat) : Nat :=
  fields.foldl (fun mask field => mask ||| 2 ^ field) mask

theorem testBit_bitsOf (fields : List Nat) (i : Nat) : ∀ mask,
    (bitsOf fields mask).testBit i = true ↔ mask.testBit i = true ∨ i ∈ fields := by
  induction fields with
  | nil => simp [bitsOf]
  | cons field rest ih =>
    intro mask
    rw [bitsOf, foldl_cons, ← bitsOf, ih, Nat.testBit_or, Nat.testBit_two_pow]
    simp only [Bool.or_eq_true, decide_eq_true_eq, mem_cons, or_assoc, eq_comm (a := field)]

theorem bits_iff (fields : List Nat) (i : Nat) : (bitsOf fields 0).testBit i = true ↔ i ∈ fields := by
  simp [testBit_bitsOf]

theorem succeeds_fieldMask (inside : ∀ field ∈ fields, field < 32 ∧ field < proof.length) : ∀ mask,
    (fieldMask proof fields mask).succeeds s Q ↔ Q (bitsOf fields mask) s := by
  induction fields with
  | nil => simp [fieldMask, bitsOf]
  | cons field rest ih =>
    intro mask
    obtain ⟨here, later⟩ := forall_mem_cons.mp inside
    simp only [fieldMask, shiftedOne, require, succeeds_bind, succeeds_ensure, succeeds_pure, here,
      ih later, and_self, true_and]
    rfl

theorem succeeds_maskBytes {R : Bytes → VerifierState → Prop} (mask : Nat) (bytes : Bytes) :
    ∀ i masked, (maskBytes mask i bytes masked).succeeds s R ↔ (bytes = [] ∨ i + bytes.length ≤ 32) ∧
      R (masked ++ bytes.mapIdx fun j byte => if mask.testBit (i + j) then 0 else byte) s := by
  induction bytes with
  | nil => simp [maskBytes]
  | cons byte rest ih =>
    intro i masked
    have set : mask &&& 2 ^ i ≠ 0 ↔ mask.testBit i = true := by
      rw [Nat.and_two_pow]
      cases mask.testBit i <;> simp
    have room : i < 32 ∧ (rest = [] ∨ i + (rest.length + 1) ≤ 32) ↔ i + (rest.length + 1) ≤ 32 := by
      cases rest with
      | nil =>
        simp only [true_or, and_true, length_nil]
        omega
      | cons =>
        simp only [reduceCtorEq, false_or, length_cons]
        omega
    have shift j : i + 1 + j = i + (j + 1) := by omega
    simp only [maskBytes, shiftedOne, succeeds_bind, succeeds_ensure, succeeds_pure, ih, set,
      mapIdx_cons, append_assoc, singleton_append, length_cons, reduceCtorEq,
      false_or, Nat.add_zero, shift]
    rw [← and_assoc, room]

end Loops

section Calls

variable {sha256 : Bytes → Hash} {proof : Bytes} {fields : List Nat} {s : VerifierState}

theorem succeeds_maskProofFields (maskable : Maskable proof fields) {R : Bytes → Prop} :
    (maskProofFields sha256 proof fields).succeeds s (fun masked _ => R masked) ↔
      proof.length ≤ 32 ∧ R (maskedHeader ++ toLeBytes (bitsOf fields 0) ++
        proof.mapIdx fun i byte => if i ∈ fields then 0 else byte) := by
  have length : proof.length ≤ 32 →
      (maskedHeader ++ (toLeBytes (bitsOf fields 0) ++ proof.mapIdx fun i byte =>
        if i ∈ fields then 0 else byte)).length ≤ maxExternalFormatSize := by
    simp [maskedHeader, toLeBytes, maxExternalFormatSize]
    omega
  simp only [maskProofFields, require, succeeds_bind, succeeds_ensure, succeeds_write, succeeds_pure,
    succeeds_fieldMask maskable.inside, succeeds_maskBytes, bits_iff, Nat.zero_add, maskable.given,
    maskable.size, maskable.some, ne_eq, not_false_eq_true, true_and, false_or, append_assoc]
  exact and_congr_right fun short => and_iff_right (length short)

/-- **When a proof is masked.** -/
theorem masks_iff (maskable : Maskable proof fields) :
    Masks sha256 proof fields s ↔ proof.length ≤ 32 := by
  refine (succeeds_maskProofFields maskable).trans (and_iff_left_of_imp fun short => ⟨?_, ?_⟩)
  · refine ⟨bitsOf fields 0, Nat.lt_pow_two_of_testBit _ fun i large => ?_, bits_iff fields, rfl⟩
    rw [← Bool.not_eq_true, bits_iff]
    exact fun listed => absurd (maskable.inside i listed).1 (by omega)
  · intro other length same
    have given : other ≠ [] := by
      rw [← length_pos_iff, length]
      exact length_pos_iff.mpr maskable.given
    have also : Maskable other fields :=
      ⟨given, length ▸ maskable.size, maskable.some, length ▸ maskable.inside⟩
    refine (succeeds_maskProofFields also).mpr ⟨length ▸ short, ?_⟩
    congr 1
    apply ext_getElem (by simp [length])
    intro i inOther inProof
    rw [length_mapIdx] at inOther inProof
    rw [getElem_mapIdx, getElem_mapIdx]
    split
    · rfl
    · rename_i shown
      simpa [inOther, inProof] using same i shown

end Calls

theorem masks_three : Masks id [7, 8, 9] [1] {} :=
  (masks_iff ⟨by decide, by decide, by decide, by decide⟩).mpr (by decide)

/-- **A proof of 33 bytes is not masked.** -/
theorem long_proof_not_masked : Maskable (replicate 33 1) [0] ∧
    ¬ (maskProofFields id (replicate 33 1) [0]).succeeds {} fun _ _ => True := by
  refine ⟨⟨by decide, by decide, by decide, by decide⟩, ?_⟩
  rintro ⟨_, _, ran, -⟩
  cases ran

end EthosContracts.ZkVerifier
