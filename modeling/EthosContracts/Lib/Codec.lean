/-
**Byte codecs.**
-/

import Mathlib.Data.List.Basic
import Mathlib.Tactic.Common

namespace EthosContracts.Lib

open List

/-- An encoding as bytes with a decoding that inverts it. The law is a field, so a codec that loses
a value cannot be built. -/
structure Codec (α : Type) where
  encode : α → List UInt8
  decode : List UInt8 → Option α
  decode_encode : ∀ a, decode (encode a) = some a

attribute [simp] Codec.decode_encode

theorem Codec.encode_inj {α : Type} (codec : Codec α) {a b : α} :
    codec.encode a = codec.encode b ↔ a = b := by
  constructor
  · intro same
    have decoded := congrArg codec.decode same
    rw [codec.decode_encode, codec.decode_encode] at decoded
    exact Option.some.inj decoded
  · exact congrArg codec.encode

/-- A codec whose encodings say where they end. -/
structure Framed (α : Type) where
  write : α → List UInt8
  read : List UInt8 → Option (α × List UInt8)
  read_write : ∀ a rest, read (write a ++ rest) = some (a, rest)

namespace Framed

variable {α β : Type}

def codec (framed : Framed α) : Codec α where
  encode := framed.write
  decode := fun bytes => (framed.read bytes).map Prod.fst
  decode_encode a := by
    have whole := framed.read_write a []
    rw [append_nil] at whole
    rw [whole]
    rfl

/-! ### Numbers -/

/-- Seven bits a byte, the lowest first, with the high bit set on all bytes but the last. -/
def writeNat : Nat → Nat → List UInt8
  | 0, n => [UInt8.ofNat n]
  | fuel + 1, n =>
    if n < 128 then [UInt8.ofNat n]
    else UInt8.ofNat (n % 128 + 128) :: writeNat fuel (n / 128)

def readNat : List UInt8 → Option (Nat × List UInt8)
  | [] => none
  | byte :: rest =>
    if byte.toNat < 128 then some (byte.toNat, rest)
    else (readNat rest).map fun (high, tail) => (byte.toNat - 128 + 128 * high, tail)

theorem readNat_writeNat (fuel n : Nat) (enough : n ≤ fuel) (rest : List UInt8) :
    readNat (writeNat fuel n ++ rest) = some (n, rest) := by
  induction fuel generalizing n with
  | zero =>
    obtain rfl : n = 0 := by omega
    rfl
  | succ fuel ih =>
    unfold writeNat
    split_ifs with small
    · have exact : (UInt8.ofNat n).toNat = n := by
        rw [UInt8.toNat_ofNat']
        omega
      rw [singleton_append, readNat, exact, if_pos small]
    · have high : (UInt8.ofNat (n % 128 + 128)).toNat = n % 128 + 128 := by
        rw [UInt8.toNat_ofNat']
        omega
      rw [cons_append, readNat, high, if_neg (by omega), ih (n / 128) (by omega)]
      simp only [Option.map_some, Option.some.injEq, Prod.mk.injEq, and_true]
      omega

def nat : Framed Nat := ⟨fun n => writeNat n n, readNat, fun n => readNat_writeNat n n (Nat.le_refl n)⟩

/-! ### Building codecs -/

def pair (first : Framed α) (second : Framed β) : Framed (α × β) where
  write := fun (a, b) => first.write a ++ second.write b
  read := fun bytes => do
    let (a, rest) ← first.read bytes
    let (b, tail) ← second.read rest
    pure ((a, b), tail)
  read_write := by
    rintro ⟨a, b⟩ rest
    simp only [append_assoc, first.read_write, second.read_write, Option.bind_eq_bind,
      Option.bind_some]
    rfl

def via (framed : Framed β) (there : α → β) (back : β → Option α)
    (inverse : ∀ a, back (there a) = some a) : Framed α where
  write := fun a => framed.write (there a)
  read := fun bytes => do
    let (b, rest) ← framed.read bytes
    let a ← back b
    pure (a, rest)
  read_write := by
    intro a rest
    simp only [framed.read_write, inverse, Option.bind_eq_bind, Option.bind_some]
    rfl

def readMany (framed : Framed α) : Nat → List UInt8 → Option (List α × List UInt8)
  | 0, bytes => some ([], bytes)
  | count + 1, bytes => do
    let (a, rest) ← framed.read bytes
    let (others, tail) ← framed.readMany count rest
    pure (a :: others, tail)

theorem readMany_flatMap (framed : Framed α) (values : List α) (rest : List UInt8) :
    framed.readMany values.length (values.flatMap framed.write ++ rest) = some (values, rest) := by
  induction values with
  | nil => rfl
  | cons a others ih =>
    simp only [flatMap_cons, length_cons, append_assoc, readMany,
      framed.read_write, Option.bind_eq_bind, Option.bind_some, ih]
    rfl

def list (framed : Framed α) : Framed (List α) where
  write := fun values => nat.write values.length ++ values.flatMap framed.write
  read := fun bytes => do
    let (count, rest) ← nat.read bytes
    framed.readMany count rest
  read_write := by
    intro values rest
    simp only [append_assoc, nat.read_write, Option.bind_eq_bind, Option.bind_some,
      readMany_flatMap]

end Framed

end EthosContracts.Lib
