/-
**The XDR encodings of the stored values.**

The host serialises values as XDR; what the contract relies on is that decoding inverts encoding.
-/

import EthosContracts.Lib.Codec
import EthosContracts.TtlVault.Types

namespace EthosContracts.TtlVault

open Lib

/-- How the host serialises a vault and each of its fields. -/
structure VaultXdr where
  vault : Codec Vault
  address : Codec Address
  i128 : Codec Int
  u64 : Codec Nat
  u32 : Codec Nat
  bool : Codec Bool
  releaseStatus : Codec ReleaseStatus
  releaseCondition : Codec ReleaseCondition
  beneficiaries : Codec (List BeneficiaryEntry)
  string : Codec String
  bytes : Codec Bytes
  optionU64 : Codec (Option Nat)
  optionU32 : Codec (Option Nat)
  optionI128 : Codec (Option Int)
  optionBytes : Codec (Option Bytes)
  optionAddress : Codec (Option Address)

/-! ### A simple instance -/

namespace Frame

open Framed

def address : Framed Address := nat.via Address.toNat (fun n => some ⟨n⟩) fun _ => rfl

def bool : Framed Bool := nat.via Bool.toNat (fun n => some (n = 1)) (by decide)

/-- The integers as naturals, the negative ones at the odd places. -/
def ofInt : Int → Nat
  | .ofNat n => 2 * n
  | .negSucc n => 2 * n + 1

def toInt (n : Nat) : Int := if n % 2 = 0 then .ofNat (n / 2) else .negSucc (n / 2)

theorem toInt_ofInt (i : Int) : toInt (ofInt i) = i := by
  cases i with
  | ofNat n =>
    rw [ofInt, toInt, if_pos (Nat.mul_mod_right 2 n), Nat.mul_div_cancel_left n (by decide)]
  | negSucc n =>
    have odd : ¬ (2 * n + 1) % 2 = 0 := by omega
    have half : (2 * n + 1) / 2 = n := by omega
    rw [ofInt, toInt, if_neg odd, half]

def int : Framed Int := nat.via ofInt (fun n => some (toInt n)) fun i => by rw [toInt_ofInt]

def option {α : Type} (framed : Framed α) : Framed (Option α) :=
  framed.list.via Option.toList (fun values => some values.head?) fun value => by
    cases value <;> rfl

def bytes : Framed Bytes :=
  (nat.via UInt8.toNat (fun n => some (UInt8.ofNat n)) fun b => by rw [UInt8.ofNat_toNat]).list

def string : Framed String :=
  (nat.via Char.toNat (fun n => some (Char.ofNat n)) fun c => by rw [Char.ofNat_toNat]).list.via
    String.toList (fun chars => some (String.ofList chars)) fun text => by rw [String.ofList_toList]

def releaseStatus : Framed ReleaseStatus :=
  nat.via
    (fun
      | .locked => 0
      | .released => 1
      | .cancelled => 2
      | .emergencyFrozen => 3)
    (fun
      | 0 => some .locked
      | 1 => some .released
      | 2 => some .cancelled
      | 3 => some .emergencyFrozen
      | _ => none)
    fun status => by cases status <;> rfl

/-- The two conditions without an oracle are written as a missing address. -/
def releaseCondition : Framed ReleaseCondition :=
  (bool.pair (option address)).via
    (fun
      | .ttlExpiry => (false, none)
      | .ownerInitiated => (true, none)
      | .oracle oracle => (true, some oracle))
    (fun
      | (_, some oracle) => some (.oracle oracle)
      | (false, none) => some .ttlExpiry
      | (true, none) => some .ownerInitiated)
    fun condition => by cases condition <;> rfl

def beneficiaryEntry : Framed BeneficiaryEntry :=
  (address.pair (nat.pair int)).via (fun entry => (entry.address, entry.bps, entry.minimumThreshold))
    (fun (address, bps, minimumThreshold) => some ⟨address, bps, minimumThreshold⟩) fun _ => rfl

def vault : Framed Vault :=
  (address.pair <| address.pair <| int.pair <| nat.pair <| nat.pair <| nat.pair <|
    releaseStatus.pair <| beneficiaryEntry.list.pair <| string.pair <| address.pair <|
    bytes.pair <| bool.pair <| releaseCondition.pair <| (option nat).pair <|
    (option bytes).pair <| (option int).pair <| (option int).pair <| (option int).pair <|
    (option nat).pair <| nat.pair (option address)).via
    (fun v => (v.owner, v.beneficiary, v.balance, v.checkInInterval, v.lastCheckIn, v.createdAt,
      v.status, v.beneficiaries, v.metadata, v.tokenAddress, v.customMetadata, v.isPaused,
      v.releaseCondition, v.parentVaultId, v.passkeyHash, v.maxDepositAmount,
      v.withdrawalApprovalThreshold, v.spendingLimit, v.inactivityPenaltyBps, v.burnPercentage,
      v.penaltyRecipient))
    (fun (owner, beneficiary, balance, checkInInterval, lastCheckIn, createdAt, status,
        beneficiaries, metadata, tokenAddress, customMetadata, isPaused, releaseCondition,
        parentVaultId, passkeyHash, maxDepositAmount, withdrawalApprovalThreshold, spendingLimit,
        inactivityPenaltyBps, burnPercentage, penaltyRecipient) =>
      some ⟨owner, beneficiary, balance, checkInInterval, lastCheckIn, createdAt, status,
        beneficiaries, metadata, tokenAddress, customMetadata, isPaused, releaseCondition,
        parentVaultId, passkeyHash, maxDepositAmount, withdrawalApprovalThreshold, spendingLimit,
        inactivityPenaltyBps, burnPercentage, penaltyRecipient⟩)
    fun _ => rfl

end Frame

/-- Numbers are written seven bits a byte; lists and texts carry their length. -/
def plainXdr : VaultXdr where
  vault := Frame.vault.codec
  address := Frame.address.codec
  i128 := Frame.int.codec
  u64 := Framed.nat.codec
  u32 := Framed.nat.codec
  bool := Frame.bool.codec
  releaseStatus := Frame.releaseStatus.codec
  releaseCondition := Frame.releaseCondition.codec
  beneficiaries := Frame.beneficiaryEntry.list.codec
  string := Frame.string.codec
  bytes := Frame.bytes.codec
  optionU64 := (Frame.option Framed.nat).codec
  optionU32 := (Frame.option Framed.nat).codec
  optionI128 := (Frame.option Frame.int).codec
  optionBytes := (Frame.option Frame.bytes).codec
  optionAddress := (Frame.option Frame.address).codec

end EthosContracts.TtlVault
