/-
**Base-32 secrets** (`two_factor.rs`).

Both loops read digits of one width and write digits of another, and keep the bits not yet written
at the low end of a 64-bit buffer: with these bits, what was written is the number that was read
(`Repacked`).
-/

import Mathlib.Data.Nat.Digits.Lemmas
import Mathlib.Data.List.Basic
import Mathlib.Tactic.Ring

namespace EthosContracts.Backend.Base32

open List

/-- `ALPHABET` -/
def alphabet : List Char := "ABCDEFGHIJKLMNOPQRSTUVWXYZ234567".toList

/-- A left shift of an `u64`. -/
def shl (buffer count : Nat) : Nat := (buffer <<< count) % 2 ^ 64

/-- `ALPHABET[(value & 0x1F) as usize]` -/
def letter (value : Nat) : Char := alphabet.getD (value &&& 0x1F) 'A'

/-- The inner loop of `base32_encode`. -/
def emit (buffer : Nat) : Nat → List Char → List Char × Nat
  | bits + 5, out => emit buffer bits (out ++ [letter (buffer >>> bits)])
  | bits, out => (out, bits)

def encodeLoop (out : List Char) (buffer bits : Nat) : List UInt8 → List Char × Nat × Nat
  | [] => (out, buffer, bits)
  | byte :: rest =>
    let buffer := shl buffer 8 ||| byte.toNat
    let (out, bits) := emit buffer (bits + 8) out
    encodeLoop out buffer bits rest

def base32Encode (input : List UInt8) : List Char :=
  let (out, buffer, bits) := encodeLoop [] 0 0 input
  if 0 < bits then out ++ [letter (shl buffer (5 - bits))] else out

/-- `char::is_whitespace` and `char::to_uppercase`, of which only the alphabet's own is needed. -/
structure Unicode where
  isWhitespace : Char → Bool
  toUppercase : Char → List Char
  not_whitespace : ∀ c ∈ alphabet, isWhitespace c = false
  uppercase : ∀ c ∈ alphabet, toUppercase c = [c]

instance : Inhabited Unicode :=
  ⟨Char.isWhitespace, fun c => [c.toUpper],
    fun c member => eq_of_beq ((all_eq_true (p := (·.isWhitespace == false))).mp rfl c member),
    fun c member => eq_of_beq ((all_eq_true (p := fun c => [c.toUpper] == [c])).mp rfl c member)⟩

def decodeLoop (out : List UInt8) (buffer bits : Nat) : List Char → Option (List UInt8)
  | [] => some out
  | c :: rest => do
    let val ← alphabet.idxOf? c
    let buffer := shl buffer 5 ||| val
    let bits := bits + 5
    if 8 ≤ bits then
      let bits := bits - 8
      decodeLoop (out ++ [UInt8.ofNat (buffer >>> bits)]) (buffer &&& (1 <<< bits - 1)) bits rest
    else decodeLoop out buffer bits rest

def base32Decode (unicode : Unicode) (input : List Char) : Option (List UInt8) :=
  decodeLoop [] 0 0 ((input.filter fun c => !unicode.isWhitespace c).flatMap unicode.toUppercase)

/-! ### Digits of two widths -/

/-- The number with the given digits, the highest first. -/
def number (base : Nat) (digits : List Nat) : Nat :=
  Nat.ofDigits base digits.reverse

theorem number_snoc (base : Nat) (digits : List Nat) (digit : Nat) :
    number base (digits ++ [digit]) = number base digits * base + digit := by
  rw [number, reverse_append, reverse_singleton, singleton_append, Nat.ofDigits_cons,
    number, Nat.add_comm, Nat.mul_comm]

theorem bytes_ext {first second : List UInt8} (length : first.length = second.length)
    (same : number (2 ^ 8) (first.map UInt8.toNat) = number (2 ^ 8) (second.map UInt8.toNat)) :
    first = second := by
  have digits (bytes : List UInt8) : ∀ digit ∈ (bytes.map UInt8.toNat).reverse, digit < 256 := by
    intro digit member
    obtain ⟨byte, -, rfl⟩ := mem_map.mp (mem_reverse.mp member)
    exact byte.toNat_lt
  have equal := Nat.ofDigits_inj_of_len_eq (by decide) (by simpa using length) (digits first)
    (digits second) same
  exact (List.map_injective_iff.mpr fun _ _ => UInt8.toNat_inj.mp) (List.reverse_injective equal)

/-- The digits read have `r` bits and those written `w`; `bits` of them wait in the buffer. -/
structure Repacked (r w : Nat) (read written : List Nat) (buffer bits : Nat) : Prop where
  length : w * written.length + bits = r * read.length
  value : number (2 ^ w) written * 2 ^ bits + buffer % 2 ^ bits = number (2 ^ r) read

namespace Repacked

variable {r w buffer bits : Nat} {read written : List Nat}

theorem empty : Repacked r w [] [] 0 0 :=
  ⟨rfl, rfl⟩

/-- What the shift loses is not live. -/
theorem shl_or_mod (buffer : Nat) {digit : Nat} (below : digit < 2 ^ r) (within : bits + r ≤ 64) :
    (shl buffer r ||| digit) % 2 ^ (bits + r) = buffer % 2 ^ bits * 2 ^ r + digit := by
  rw [← Nat.shiftLeft_eq, Nat.shiftLeft_add_eq_or_of_lt below]
  apply Nat.eq_of_testBit_eq
  intro i
  have high : r ≤ i → digit.testBit i = false := fun le =>
    Nat.testBit_lt_two_pow (below.trans_le (Nat.pow_le_pow_right (by decide) le))
  simp only [shl, Nat.testBit_mod_two_pow, Nat.testBit_or, Nat.testBit_shiftLeft]
  by_cases live : r ≤ i
  · have same : i - r < bits ↔ i < bits + r := by omega
    simp only [high live, live, same, decide_true, Bool.true_and, Bool.or_false]
    by_cases inside : i < bits + r
    · simp only [inside, inside.trans_le within, decide_true, Bool.true_and]
    · simp only [inside, decide_false, Bool.false_and]
  · have inside : i < bits + r := by omega
    simp only [live, inside, decide_true, decide_false, Bool.false_and, Bool.and_false,
      Bool.true_and, Bool.false_or]

theorem shift (packed : Repacked r w read written buffer bits) {digit : Nat} (below : digit < 2 ^ r)
    (within : bits + r ≤ 64) :
    Repacked r w (read ++ [digit]) written (shl buffer r ||| digit) (bits + r) where
  length := by
    have length := packed.length
    rw [length_append, length_singleton, Nat.mul_add]
    omega
  value := by
    rw [shl_or_mod buffer below within, number_snoc, ← packed.value, Nat.pow_add]
    ring

theorem write (packed : Repacked r w read written buffer (bits + w)) :
    Repacked r w read (written ++ [(buffer >>> bits) % 2 ^ w]) buffer bits where
  length := by
    have length := packed.length
    rw [length_append, length_singleton, Nat.mul_add]
    omega
  value := by
    rw [← packed.value, number_snoc, Nat.shiftRight_eq_div_pow, Nat.pow_add, Nat.mod_mul]
    ring

theorem mask (packed : Repacked r w read written buffer bits) :
    Repacked r w read written (buffer &&& (1 <<< bits - 1)) bits where
  length := packed.length
  value := by
    rw [Nat.one_shiftLeft, Nat.and_two_pow_sub_one_eq_mod, Nat.mod_mod]
    exact packed.value

end Repacked

/-! ### The encoder -/

theorem letter_mod (value : Nat) : letter value = letter (value % 2 ^ 5) := by
  unfold letter
  rw [Nat.and_two_pow_sub_one_eq_mod _ 5, Nat.and_two_pow_sub_one_eq_mod _ 5, Nat.mod_mod]

theorem letter_mem (value : Nat) : letter value ∈ alphabet := by
  have member : ∀ digit < 32, letter digit ∈ alphabet := by decide
  rw [letter_mod]
  exact member _ (Nat.mod_lt _ (by decide))

theorem idxOf_letter : ∀ digit < 32, alphabet.idxOf? (letter digit) = some digit := by
  decide

/-- The digits of the letters written. -/
def Spells (groups : List Nat) (out : List Char) : Prop :=
  out = groups.map letter ∧ ∀ group ∈ groups, group < 32

theorem Spells.nil : Spells [] [] :=
  ⟨rfl, fun _ member => absurd member not_mem_nil⟩

theorem Spells.snoc {groups : List Nat} {out : List Char} (spelt : Spells groups out) (value : Nat) :
    Spells (groups ++ [value % 2 ^ 5]) (out ++ [letter value]) := by
  refine ⟨?_, List.forall_mem_append.mpr ⟨spelt.2, ?_⟩⟩
  · rw [spelt.1, map_append, map_singleton, ← letter_mod]
  · exact forall_mem_singleton.mpr (Nat.mod_lt _ (by decide))

theorem emit_packed {read groups : List Nat} {buffer bits : Nat} {out : List Char}
    (packed : Repacked 8 5 read groups buffer bits) (spelt : Spells groups out) :
    ∃ groups', Repacked 8 5 read groups' buffer (emit buffer bits out).2 ∧
      Spells groups' (emit buffer bits out).1 ∧ (emit buffer bits out).2 < 5 := by
  fun_induction emit buffer bits out generalizing groups with
  | case1 bits out ih => exact ih packed.write (spelt.snoc _)
  | case2 bits out small =>
    have few : bits < 5 := by
      by_contra many
      exact small (bits - 5) (by omega)
    exact ⟨groups, packed, spelt, few⟩

theorem encodeLoop_packed {read groups : List Nat} {buffer bits : Nat} {out : List Char}
    (packed : Repacked 8 5 read groups buffer bits) (spelt : Spells groups out) (few : bits < 5)
    (input : List UInt8) : ∃ groups', let (out', buffer', bits') := encodeLoop out buffer bits input
      Repacked 8 5 (read ++ input.map UInt8.toNat) groups' buffer' bits' ∧
        Spells groups' out' ∧ bits' < 5 := by
  induction input generalizing read groups out buffer bits with
  | nil => exact ⟨groups, by simpa using packed, spelt, few⟩
  | cons byte input ih =>
    obtain ⟨groups', packed', spelt', few'⟩ :=
      emit_packed (packed.shift byte.toNat_lt (by omega)) spelt
    have rest := ih packed' spelt' few'
    rw [append_assoc] at rest
    exact rest

/-- The letters spell the bytes, followed by zero bits. -/
theorem base32Encode_spells (x : List UInt8) : ∃ groups pad, Spells groups (base32Encode x) ∧
    pad < 5 ∧ 5 * groups.length = 8 * x.length + pad ∧
      number (2 ^ 5) groups = number (2 ^ 8) (x.map UInt8.toNat) * 2 ^ pad := by
  obtain ⟨groups, packed, spelt, few⟩ := encodeLoop_packed .empty .nil (by decide) x
  unfold base32Encode
  generalize encodeLoop [] 0 0 x = final at packed spelt few ⊢
  obtain ⟨out, buffer, bits⟩ := final
  obtain ⟨length, value⟩ := packed
  simp only [nil_append, length_map] at length value spelt few ⊢
  split_ifs with waiting
  · have group : shl buffer (5 - bits) % 2 ^ 5 = buffer % 2 ^ bits * 2 ^ (5 - bits) := by
      have within : bits + (5 - bits) = 5 := by omega
      have live := Repacked.shl_or_mod buffer (Nat.two_pow_pos (5 - bits)) (within.trans_le (by decide))
      rwa [Nat.or_zero, Nat.add_zero, within] at live
    refine ⟨_, 5 - bits, spelt.snoc _, by omega, ?_, ?_⟩
    · rw [length_append, length_singleton]
      omega
    · rw [number_snoc, group, ← value, Nat.add_mul, Nat.mul_assoc, ← Nat.pow_add,
        Nat.add_sub_of_le few.le]
  · obtain rfl : bits = 0 := by omega
    refine ⟨groups, 0, spelt, by decide, length, ?_⟩
    simp only [← value, pow_zero, Nat.mod_one, Nat.mul_one, Nat.add_zero]

/-! ### The decoder -/

theorem decodeLoop_packed {read : List Nat} {out : List UInt8} {buffer bits : Nat}
    (packed : Repacked 5 8 read (out.map UInt8.toNat) buffer bits) (few : bits < 8)
    {groups : List Nat} (digits : ∀ group ∈ groups, group < 32) :
    ∃ result buffer' bits', decodeLoop out buffer bits (groups.map letter) = some result ∧
      Repacked 5 8 (read ++ groups) (result.map UInt8.toNat) buffer' bits' ∧ bits' < 8 := by
  induction groups generalizing read out buffer bits with
  | nil => exact ⟨out, buffer, bits, rfl, by simpa using packed, few⟩
  | cons group groups ih =>
    obtain ⟨here, later⟩ := forall_mem_cons.mp digits
    have shifted := packed.shift here (by omega)
    rw [map_cons, decodeLoop, idxOf_letter group here, append_cons]
    simp only [Option.bind_eq_bind, Option.bind_some]
    split_ifs with enough
    · have written := (Nat.sub_add_cancel enough ▸ shifted).write.mask
      refine ih ?_ (by omega) later
      rw [map_append, map_singleton, UInt8.toNat_ofNat']
      exact written
    · exact ih shifted (by omega) later

/-- **Secrets survive.** -/
theorem base32_round_trip (unicode : Unicode) (x : List UInt8) :
    base32Decode unicode (base32Encode x) = some x ∧
      (base32Encode x).length = (8 * x.length + 4) / 5 ∧ ∀ c ∈ base32Encode x, c ∈ alphabet := by
  obtain ⟨groups, pad, ⟨spelt, digits⟩, short, length, value⟩ := base32Encode_spells x
  have letters : ∀ c ∈ groups.map letter, c ∈ alphabet := by
    rintro _ member
    obtain ⟨group, -, rfl⟩ := mem_map.mp member
    exact letter_mem group
  rw [spelt]
  refine ⟨?_, by rw [length_map]; omega, letters⟩
  have kept : (groups.map letter).filter (fun c => !unicode.isWhitespace c) = groups.map letter :=
    filter_eq_self.mpr fun c member => by rw [unicode.not_whitespace c (letters c member)]; rfl
  have upper : (groups.map letter).flatMap unicode.toUppercase = groups.map letter := by
    rw [flatMap_congr fun c member => unicode.uppercase c (letters c member)]
    exact flatMap_singleton' _
  have start : Repacked 5 8 [] (map UInt8.toNat []) 0 0 := .empty
  obtain ⟨result, buffer, bits, decoded, packed, few⟩ := decodeLoop_packed start (by decide) digits
  rw [base32Decode, kept, upper, decoded]
  obtain ⟨length', value'⟩ := packed
  rw [nil_append, length_map] at length'
  obtain ⟨rfl, same⟩ : bits = pad ∧ result.length = x.length := by omega
  rw [nil_append, value] at value'
  have quotient := congrArg (· / 2 ^ bits) value'
  simp only [Nat.mul_comm _ (2 ^ bits), Nat.mul_add_div (Nat.two_pow_pos bits),
    Nat.div_eq_of_lt (Nat.mod_lt buffer (Nat.two_pow_pos bits)), Nat.add_zero,
    Nat.mul_div_cancel_left _ (Nat.two_pow_pos bits)] at quotient
  exact congrArg some (bytes_ext same quotient)

end EthosContracts.Backend.Base32
