/-
**The byte codec of `diff_codec.rs`: zero-run lengths and XOR deltas.**

The stream consists of tokens `0x00 n` (`n` zero bytes) and `0x01 n b₁ … bₙ` (`n` literal bytes).
The encoder's index is the list still to be read, together with the number of bytes a zero token has
already covered. Both codecs return what they are given (`rleDecodeBuf_rleEncodeBuf`,
`diffDecompress_diffCompress`).
-/

import Mathlib.Order.Nat
import EthosContracts.TtlVault.Types

namespace EthosContracts.TtlVault

open List

/-! ### The functions -/

def tokenZeros : UInt8 := 0

def tokenLiteral : UInt8 := 1

def maxRun : Nat := 255

def minZeroRun : Nat := 3

/-- `xor_delta_buf`: bytes that `prev` lacks count as zero. -/
def xorDeltaBuf (prev next : Bytes) : Bytes :=
  next.mapIdx fun i b => b ^^^ (prev[i]?.getD 0)

/-- `flush_literal`, as what it appends. -/
def flushLiteral (literal : Bytes) : Bytes :=
  if literal = [] then [] else tokenLiteral :: UInt8.ofNat literal.length :: literal

def zeroRun : (limit : Nat) → (input : Bytes) → Nat
  | limit + 1, b :: rest => if b = 0 then zeroRun limit rest + 1 else 0
  | _, _ => 0

/-- The loop of `rle_encode_buf`; the first `covered` bytes are part of the last zero token. -/
def rleEncodeLoop : (input : Bytes) → (covered : Nat) → (literal out : Bytes) → Bytes
  | [], _, literal, out => out ++ flushLiteral literal
  | _ :: rest, covered + 1, literal, out => rleEncodeLoop rest covered literal out
  | b :: rest, 0, literal, out =>
    if b = 0 ∧ minZeroRun ≤ zeroRun maxRun (b :: rest) then
      rleEncodeLoop rest (zeroRun maxRun (b :: rest) - 1) []
        (out ++ flushLiteral literal ++ [tokenZeros, UInt8.ofNat (zeroRun maxRun (b :: rest))])
    else if (literal ++ [b]).length = maxRun then
      rleEncodeLoop rest 0 [] (out ++ flushLiteral (literal ++ [b]))
    else rleEncodeLoop rest 0 (literal ++ [b]) out

def rleEncodeBuf (input : Bytes) : Bytes := rleEncodeLoop input 0 [] []

/-- The loop of `rle_decode_buf`; every round reads at least two bytes. -/
def rleDecodeLoop : (rounds : Nat) → (input out : Bytes) → Option Bytes
  | _, [], out => some out
  | 0, _ :: _, _ => none
  | _ + 1, [_], _ => none
  | rounds + 1, token :: n :: rest, out =>
    if n = 0 then none
    else if token = tokenZeros then
      rleDecodeLoop rounds rest (out ++ List.replicate n.toNat 0)
    else if token = tokenLiteral then
      if n.toNat ≤ rest.length then
        rleDecodeLoop rounds (rest.drop n.toNat) (out ++ rest.take n.toNat)
      else none
    else none

def rleDecodeBuf (input : Bytes) : Option Bytes := rleDecodeLoop input.length input []

def diffCompress (prev next : Bytes) : Bytes := rleEncodeBuf (xorDeltaBuf prev next)

def diffDecompress (prev delta : Bytes) (len : Nat) : Option Bytes := do
  let decoded ← rleDecodeBuf delta
  if decoded.length ≠ len then none else some (xorDeltaBuf prev decoded)

/-! ### Tokens -/

/-- What the run-length encoding of a difference is made of. -/
inductive Token
  | zeros (n : Nat)
  | literal (bytes : Bytes)

namespace Token

/-- What a token stands for. -/
def expand : Token → Bytes
  | zeros n => List.replicate n 0
  | literal bytes => bytes

def bytes : Token → Bytes
  | zeros n => [tokenZeros, UInt8.ofNat n]
  | literal bytes => tokenLiteral :: UInt8.ofNat bytes.length :: bytes

def Valid (token : Token) : Prop := 1 ≤ token.expand.length ∧ token.expand.length ≤ maxRun

end Token

/-- `out` is a stream of valid tokens for `input`. -/
def Encodes (out input : Bytes) : Prop :=
  ∃ tokens : List Token, (∀ token ∈ tokens, token.Valid) ∧ out = tokens.flatMap Token.bytes ∧
    input = tokens.flatMap Token.expand

theorem encodes_nil : Encodes [] [] := ⟨[], by simp, rfl, rfl⟩

variable {input : Bytes} {token : Token}

theorem Encodes.append {out out' input' : Bytes} (first : Encodes out input)
    (second : Encodes out' input') : Encodes (out ++ out') (input ++ input') := by
  obtain ⟨tokens, valid, rfl, rfl⟩ := first
  obtain ⟨tokens', valid', rfl, rfl⟩ := second
  refine ⟨tokens ++ tokens', ?_, ?_, ?_⟩
  · exact forall_mem_append.mpr ⟨valid, valid'⟩
  · rw [flatMap_append]
  · rw [flatMap_append]

theorem Token.Valid.encodes (valid : token.Valid) : Encodes token.bytes token.expand := by
  refine ⟨[token], ?_, ?_, ?_⟩
  · intro other member
    rw [mem_singleton.mp member]
    exact valid
  · rw [flatMap_singleton]
  · rw [flatMap_singleton]

/-! ### The encoder writes tokens for its input -/

theorem flushLiteral_encodes {literal : Bytes} (short : literal.length ≤ maxRun) :
    Encodes (flushLiteral literal) literal := by
  unfold flushLiteral
  split_ifs with empty
  · rw [empty]
    exact encodes_nil
  · have valid : (Token.literal literal).Valid := ⟨length_pos_iff.mpr empty, short⟩
    exact valid.encodes

theorem eq_zeros_append (limit : Nat) (input : Bytes) :
    input = List.replicate (zeroRun limit input) 0 ++ input.drop (zeroRun limit input) := by
  induction limit generalizing input with
  | zero => rfl
  | succ limit ih =>
    cases input with
    | nil => rfl
    | cons b rest =>
      rw [zeroRun]
      split_ifs with zero
      · rw [replicate_succ, drop_succ_cons, cons_append, ← ih rest, zero]
      · rfl

theorem zeroRun_le (limit : Nat) (input : Bytes) : zeroRun limit input ≤ limit := by
  induction limit generalizing input with
  | zero => exact Nat.le_refl 0
  | succ limit ih =>
    cases input with
    | nil => exact Nat.zero_le _
    | cons b rest =>
      rw [zeroRun]
      split_ifs
      · exact Nat.succ_le_succ (ih rest)
      · exact Nat.zero_le _

theorem rleEncodeLoop_encodes (input : Bytes) (covered : Nat) (literal out read : Bytes)
    (short : literal.length < maxRun) (written : Encodes out read) :
    Encodes (rleEncodeLoop input covered literal out) (read ++ literal ++ input.drop covered) := by
  induction input generalizing covered literal out read with
  | nil =>
    rw [rleEncodeLoop, drop_nil, append_nil]
    exact written.append (flushLiteral_encodes short.le)
  | cons b rest ih =>
    cases covered with
    | succ covered => exact ih covered literal out read short written
    | zero =>
      rw [rleEncodeLoop, drop_zero]
      split_ifs with zeros full
      · -- a zero token: the bytes it covers are skipped in the following rounds
        have split := eq_zeros_append maxRun (b :: rest)
        have bound := zeroRun_le maxRun (b :: rest)
        have pos : 1 ≤ zeroRun maxRun (b :: rest) := le_trans (by decide) zeros.2
        generalize zeroRun maxRun (b :: rest) = run at split bound pos ⊢
        obtain ⟨run, rfl⟩ : ∃ smaller, run = smaller + 1 := ⟨run - 1, by omega⟩
        have valid : (Token.zeros (run + 1)).Valid := by
          unfold Token.Valid Token.expand
          rw [length_replicate]
          exact ⟨pos, bound⟩
        have token := (written.append (flushLiteral_encodes short.le)).append valid.encodes
        have later := ih run [] _ _ (by decide) token
        rw [append_nil, append_assoc _ _ (rest.drop run)] at later
        rw [split]
        exact later
      · have flushed := written.append (flushLiteral_encodes full.le)
        have later := ih 0 [] _ _ (by decide) flushed
        rw [append_nil, drop_zero, append_assoc read, append_assoc literal,
          singleton_append, ← append_assoc] at later
        exact later
      · have longer : (literal ++ [b]).length < maxRun := by
          have step : (literal ++ [b]).length = literal.length + 1 := by simp
          omega
        have later := ih 0 (literal ++ [b]) out read longer written
        rw [drop_zero, append_assoc read, append_assoc literal,
          singleton_append, ← append_assoc] at later
        exact later

theorem rleEncodeBuf_encodes (input : Bytes) : Encodes (rleEncodeBuf input) input := by
  have whole := rleEncodeLoop_encodes input 0 [] [] [] (by decide) encodes_nil
  rwa [drop_zero] at whole

/-! ### The decoder expands tokens -/

theorem toNat_count (valid : token.Valid) :
    (UInt8.ofNat token.expand.length).toNat = token.expand.length := by
  obtain ⟨-, short⟩ := valid
  unfold maxRun at short
  rw [UInt8.toNat_ofNat']
  omega

theorem count_ne_zero (valid : token.Valid) : UInt8.ofNat token.expand.length ≠ 0 := by
  intro zero
  have count := toNat_count valid
  rw [zero] at count
  exact absurd valid.1 (by rw [← count]; decide)

theorem rleDecodeLoop_token (valid : token.Valid) (rounds : Nat) (rest out : Bytes) :
    rleDecodeLoop (rounds + 1) (token.bytes ++ rest) out =
      rleDecodeLoop rounds rest (out ++ token.expand) := by
  have count := toNat_count valid
  have nonzero := count_ne_zero valid
  cases token with
  | zeros n =>
    simp only [Token.expand, length_replicate] at count nonzero
    show rleDecodeLoop (rounds + 1) (tokenZeros :: UInt8.ofNat n :: rest) out = _
    rw [rleDecodeLoop, if_neg nonzero, if_pos rfl, count]
    rfl
  | literal bytes =>
    simp only [Token.expand] at count nonzero
    show rleDecodeLoop (rounds + 1)
      (tokenLiteral :: UInt8.ofNat bytes.length :: (bytes ++ rest)) out = _
    rw [rleDecodeLoop, if_neg nonzero, if_neg (by decide), if_pos rfl, count,
      if_pos (by rw [length_append]; omega), drop_left, take_left]
    rfl

theorem rleDecodeLoop_encodes {stream : Bytes} (encodes : Encodes stream input)
    (rounds : Nat) (enough : stream.length ≤ rounds) (out : Bytes) :
    rleDecodeLoop rounds stream out = some (out ++ input) := by
  obtain ⟨tokens, valid, rfl, rfl⟩ := encodes
  induction tokens generalizing rounds out with
  | nil =>
    rw [flatMap_nil, flatMap_nil, append_nil]
    cases rounds <;> rfl
  | cons token others ih =>
    rw [flatMap_cons] at enough ⊢
    rw [flatMap_cons]
    have long : 1 ≤ token.bytes.length := by
      cases token <;> exact Nat.succ_le_succ (Nat.zero_le _)
    rw [length_append] at enough
    obtain ⟨fewer, rfl⟩ : ∃ fewer, rounds = fewer + 1 := ⟨rounds - 1, by omega⟩
    rw [rleDecodeLoop_token (valid token mem_cons_self),
      ih fewer _ (forall_mem_cons.mp valid).2 (by omega),
      append_assoc]

/-! ### Round trips -/

@[simp] theorem rleDecodeBuf_rleEncodeBuf (input : Bytes) :
    rleDecodeBuf (rleEncodeBuf input) = some input :=
  rleDecodeLoop_encodes (rleEncodeBuf_encodes input) _ (Nat.le_refl _) []

@[simp] theorem length_xorDeltaBuf (prev next : Bytes) :
    (xorDeltaBuf prev next).length = next.length := by
  unfold xorDeltaBuf
  rw [length_mapIdx]

@[simp] theorem xorDeltaBuf_xorDeltaBuf (prev next : Bytes) :
    xorDeltaBuf prev (xorDeltaBuf prev next) = next := by
  refine ext_getElem? fun i => ?_
  unfold xorDeltaBuf
  rw [List.getElem?_mapIdx, List.getElem?_mapIdx]
  cases next[i]? with
  | none => rfl
  | some b =>
    show some (b ^^^ prev[i]?.getD 0 ^^^ prev[i]?.getD 0) = some b
    rw [UInt8.xor_assoc, UInt8.xor_self, UInt8.xor_zero]

@[simp] theorem diffDecompress_diffCompress (prev next : Bytes) :
    diffDecompress prev (diffCompress prev next) next.length = some next := by
  unfold diffDecompress diffCompress
  rw [rleDecodeBuf_rleEncodeBuf]
  simp

end EthosContracts.TtlVault
