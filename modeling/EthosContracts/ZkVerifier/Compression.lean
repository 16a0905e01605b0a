/-
**Run-length compression of proofs** (`compression.rs`).

A compressed proof is the magic byte and a pair of bytes for every run: its count, never zero, and
the byte repeated.
-/

import Mathlib.Data.List.Basic
import Mathlib.Algebra.Order.Ring.Nat
import Mathlib.Tactic.Common

namespace EthosContracts.ZkVerifier

open List

inductive CompressionError
  | emptyInput
  | invalidData
  | outputTooLarge
deriving DecidableEq

def magic : UInt8 := 0xC0

/-- The loops of `compress_proof`, with `run` bytes equal to `current` read since the last pair. -/
def compressLoop (current : UInt8) (run : Nat) : List UInt8 → List UInt8
  | [] => [UInt8.ofNat run, current]
  | next :: rest =>
    if run < 255 ∧ next = current then compressLoop current (run + 1) rest
    else UInt8.ofNat run :: current :: compressLoop next 1 rest

def compressProof : List UInt8 → Except CompressionError (List UInt8)
  | [] => .error .emptyInput
  | current :: rest => .ok (magic :: compressLoop current 1 rest)

/-- The inner loop of `decompress_proof`: `count` more copies of `byte`. -/
def pushRun (maxOutputSize : Nat) (byte : UInt8) :
    Nat → List UInt8 → Except CompressionError (List UInt8)
  | 0, out => .ok out
  | count + 1, out =>
    if maxOutputSize ≤ out.length then .error .outputTooLarge
    else pushRun maxOutputSize byte count (out ++ [byte])

def decompressLoop (maxOutputSize : Nat) (out : List UInt8) :
    List UInt8 → Except CompressionError (List UInt8)
  | [] => .ok out
  | [_] => .error .invalidData
  | count :: byte :: rest =>
    if count = 0 then .error .invalidData
    else do
      let out ← pushRun maxOutputSize byte count.toNat out
      decompressLoop maxOutputSize out rest

def decompressProof (input : List UInt8) (maxOutputSize : Nat) :
    Except CompressionError (List UInt8) :=
  match input with
  | [] => .error .emptyInput
  | first :: rest =>
    if first ≠ magic then .error .invalidData else decompressLoop maxOutputSize [] rest

/-- Complete pairs with counts other than zero. -/
def Pairs : List UInt8 → Prop
  | [] => True
  | [_] => False
  | count :: _ :: rest => count ≠ 0 ∧ Pairs rest

/-- The magic byte and then runs. -/
def WellFormed (input : List UInt8) : Prop :=
  ∃ pairs, Pairs pairs ∧ input = magic :: pairs

section

variable (limit : Nat)

theorem pushRun_eq (byte : UInt8) (count : Nat) (out : List UInt8) (room : out.length ≤ limit) :
    pushRun limit byte count out =
      if out.length + count ≤ limit then .ok (out ++ replicate count byte)
      else .error .outputTooLarge := by
  induction count generalizing out with
  | zero => simp [pushRun, room]
  | succ count ih =>
    unfold pushRun
    by_cases full : limit ≤ out.length
    · rw [if_pos full, if_neg (by omega)]
    · have longer : (out ++ [byte]).length = out.length + 1 := length_append
      rw [if_neg full, ih _ (by omega), longer, append_assoc, singleton_append,
        replicate_succ, Nat.add_assoc, Nat.add_comm 1]

/-! ### Round trip -/

theorem decompressLoop_run {run : Nat} (byte : UInt8) (rest out : List UInt8) (started : run ≠ 0)
    (short : run ≤ 255) (room : out.length ≤ limit) :
    decompressLoop limit out (UInt8.ofNat run :: byte :: rest) =
      if out.length + run ≤ limit then decompressLoop limit (out ++ replicate run byte) rest
      else .error .outputTooLarge := by
  have count : (UInt8.ofNat run).toNat = run := by
    rw [UInt8.toNat_ofNat']
    omega
  have counted : UInt8.ofNat run ≠ 0 := fun zero => started (by rw [← count, zero]; rfl)
  rw [decompressLoop, if_neg counted, count, pushRun_eq limit byte run out room]
  split_ifs <;> rfl

theorem decompressLoop_compressLoop (current : UInt8) (run : Nat) (rest out : List UInt8)
    (started : run ≠ 0) (short : run ≤ 255) (room : out.length ≤ limit) :
    decompressLoop limit out (compressLoop current run rest) =
      if out.length + run + rest.length ≤ limit then .ok (out ++ replicate run current ++ rest)
      else .error .outputTooLarge := by
  induction rest generalizing current run out with
  | nil =>
    rw [compressLoop, decompressLoop_run limit current [] out started short room, append_nil]
    rfl
  | cons next rest ih =>
    rw [compressLoop, length_cons]
    split_ifs with more fits fits
    · obtain ⟨longer, rfl⟩ := more
      rw [ih next (run + 1) out run.succ_ne_zero longer room, if_pos (by omega),
        replicate_succ', append_assoc, append_assoc, append_assoc]
      rfl
    · rw [ih current (run + 1) out run.succ_ne_zero more.1 room, if_neg (by omega)]
    all_goals
      have longer : (out ++ replicate run current).length = out.length + run := by simp
      rw [decompressLoop_run limit current _ out started short room]
    · rw [if_pos (by omega), ih next 1 _ one_ne_zero (by decide) (by omega), longer, if_pos (by omega),
        append_assoc _ _ rest]
      rfl
    · split_ifs
      · rw [ih next 1 _ one_ne_zero (by decide) (by omega), longer, if_neg (by omega)]
      · rfl

theorem length_compressLoop_le (current : UInt8) (run : Nat) (rest : List UInt8) :
    (compressLoop current run rest).length ≤ 2 + 2 * rest.length := by
  fun_induction compressLoop current run rest <;> simp only [length_cons, length_nil] <;> omega

/-! ### Arbitrary input -/

theorem length_decompressLoop_le {out result input : List UInt8} (room : out.length ≤ limit)
    (accepted : decompressLoop limit out input = .ok result) : result.length ≤ limit := by
  fun_induction decompressLoop limit out input with
  | case1 out => exact Except.ok.inj accepted ▸ room
  | case2 | case3 => cases accepted
  | case4 out count byte rest counted ih =>
    rw [pushRun_eq limit byte _ out room] at accepted
    split_ifs at accepted with fits
    · exact ih _ (by simpa using fits) accepted
    · cases accepted

theorem decompressLoop_accepts (out input : List UInt8)
    (room : out.length + 255 * input.length ≤ limit) :
    (∃ result, decompressLoop limit out input = .ok result) ↔ Pairs input := by
  fun_induction decompressLoop limit out input with
  | case1 out => exact ⟨fun _ => trivial, fun _ => ⟨out, rfl⟩⟩
  | case2 => exact ⟨by rintro ⟨_, ⟨⟩⟩, False.elim⟩
  | case3 => exact ⟨by rintro ⟨_, ⟨⟩⟩, fun pairs => absurd rfl pairs.1⟩
  | case4 out count byte rest counted ih =>
    have bound := count.toNat_lt
    simp only [length_cons] at room
    rw [pushRun_eq limit byte _ out (by omega), if_pos (by omega), Pairs, and_iff_right counted]
    exact ih _ (by rw [length_append, length_replicate]; omega)

end

/-- **The codec is correct.** A compressed proof is returned whole or refused as too large, it is
not much longer than the proof, nothing longer than the limit is returned, and with room enough
exactly the well-formed streams are accepted. -/
theorem proof_codec_correct (limit : Nat) :
    (∀ x ≠ [], ∃ packed, compressProof x = .ok packed ∧ packed.length ≤ 1 + 2 * x.length ∧
      decompressProof packed limit =
        if x.length ≤ limit then .ok x else .error .outputTooLarge) ∧
    (∀ input out, decompressProof input limit = .ok out → out.length ≤ limit) ∧
    ∀ input, 255 * input.length ≤ limit →
      ((∃ out, decompressProof input limit = .ok out) ↔ WellFormed input) := by
  refine ⟨fun x nonempty => ?_, fun input out accepted => ?_, fun input room => ?_⟩
  · obtain ⟨first, rest, rfl⟩ := exists_cons_of_ne_nil nonempty
    have short := length_compressLoop_le first 1 rest
    have decoded := decompressLoop_compressLoop limit first 1 rest [] one_ne_zero (by decide)
      (Nat.zero_le _)
    refine ⟨_, rfl, ?_, ?_⟩
    · rw [length_cons, length_cons]
      omega
    · rw [length_nil, Nat.zero_add, Nat.add_comm] at decoded
      exact decoded
  all_goals cases input with
    | nil => ?_
    | cons first rest => ?_
  · cases accepted
  · rw [decompressProof] at accepted
    split_ifs at accepted
    exact length_decompressLoop_le limit (Nat.zero_le _) accepted
  · exact ⟨by rintro ⟨_, ⟨⟩⟩, by rintro ⟨_, _, ⟨⟩⟩⟩
  · rw [length_cons] at room
    have pairs := decompressLoop_accepts limit [] rest (by rw [length_nil]; omega)
    rw [decompressProof]
    by_cases same : first = magic
    · subst same
      rw [if_neg (not_not.mpr rfl), pairs]
      exact ⟨fun right => ⟨rest, right, rfl⟩, fun ⟨_, right, same⟩ => (cons.inj same).2 ▸ right⟩
    · rw [if_pos same]
      exact ⟨by rintro ⟨_, ⟨⟩⟩, fun ⟨_, _, equal⟩ => absurd (cons.inj equal).1 same⟩

end EthosContracts.ZkVerifier
