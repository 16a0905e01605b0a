/-
**Vault NFTs: minting, metadata and secondary sales.**

`create_vault` mints one token for each new vault, held by its owner. `buy_nft` moves it to a buyer,
who authorises the call and names the price.
-/

import EthosContracts.TtlVault.Transition

namespace EthosContracts.TtlVault

open Lib Function

/-! ### Storage -/

def maxNftMetadataLen : Nat := 256

structure VaultNft where
  tokenId : Nat
  vaultId : VaultId
  minter : Address
  owner : Address
  metadata : String
  mintedAt : Nat
  lastSalePrice : Option Int
deriving DecidableEq

structure NftSale where
  tokenId : Nat
  saleNo : Nat
  seller : Address
  buyer : Address
  price : Int
  soldAt : Nat
deriving DecidableEq

/-- The keys of the NFT module, and the rest of the contract. -/
structure NftState where
  base : State
  counter : Nat := 0
  byVault : VaultId → Option VaultNft := fun _ => none
  vaultOfToken : Nat → Option VaultId := fun _ => none
  saleCount : Nat → Nat := fun _ => 0
  sale : Nat → Nat → Option NftSale := fun _ _ => none

abbrev NftTx (α : Type) : Type := Tx Failure NftState α

variable (env : Env) (s : NftState) (vaultId : VaultId) (tokenId : Nat)

namespace Nft

def onBase {α : Type} (x : Contract α) : NftTx α :=
  x.zoom NftState.base fun base s => { s with base := base }

/-! ### The NFT module -/

def nextTokenId : NftTx Nat := do
  let counter ← read NftState.counter
  ensure (counter + 1 ≤ maxU64) .overflow
  write fun s => { s with counter := counter + 1 }
  pure (counter + 1)

def storeNft (nft : VaultNft) : NftTx Unit :=
  write fun s => { s with byVault := update s.byVault nft.vaultId (some nft) }

def mintForVault (owner : Address) : NftTx Nat := do
  let tokenId ← nextTokenId
  storeNft ⟨tokenId, vaultId, owner, owner, "", env.now, none⟩
  write fun s => { s with vaultOfToken := update s.vaultOfToken tokenId (some vaultId) }
  pure tokenId

def getVaultNft : Option VaultNft := s.byVault vaultId

def getNftByToken : Option VaultNft :=
  (s.vaultOfToken tokenId).bind (getVaultNft s)

def getNftOwner : Option Address :=
  (getVaultNft s vaultId).map (·.owner)

def storeMetadata (metadata : String) : NftTx Unit := do
  ensure (metadata.utf8ByteSize ≤ maxNftMetadataLen) (.error .nftMetadataTooLong)
  let stored ← read (getVaultNft · vaultId)
  let nft ← expect stored (.error .nftNotFound)
  storeNft { nft with metadata := metadata }

/-- The sale itself, in the module that trusts its caller. -/
def sell (buyer tokenAddress : Address) (price : Int) : NftTx NftSale := do
  ensure (0 < price) (.error .invalidAmount)
  let stored ← read (getNftByToken · tokenId)
  let nft ← expect stored (.error .nftNotFound)
  ensure (nft.owner ≠ buyer) (.error .cannotBuyOwnNft)
  onBase (transfer tokenAddress buyer nft.owner price)
  let count ← read (·.saleCount tokenId)
  ensure (count + 1 ≤ maxU64) .overflow
  let sale : NftSale := ⟨tokenId, count + 1, nft.owner, buyer, price, env.now⟩
  write fun s => { s with
    sale := update s.sale tokenId (update (s.sale tokenId) (count + 1) (some sale))
    saleCount := update s.saleCount tokenId (count + 1) }
  storeNft { nft with owner := buyer, lastSalePrice := some price }
  pure sale

/-! ### Calls -/

def createVault (env : Env) (owner beneficiary : Address) (checkInInterval : Nat)
    (tokenAddress : Option Address) : NftTx VaultId := do
  let vaultId ← onBase (TtlVault.createVault env owner beneficiary checkInInterval tokenAddress)
  let _ ← mintForVault env vaultId owner
  pure vaultId

def setNftMetadata (caller : Address) (metadata : String) : NftTx Unit := do
  onBase (requireAuth env caller)
  let stored ← read (getNftOwner · vaultId)
  let holder ← expect stored (.error .nftNotFound)
  ensure (holder = caller) (.error .notOwner)
  storeMetadata vaultId metadata

def buyNft (buyer : Address) (price : Int) : NftTx NftSale := do
  onBase (requireAuth env buyer)
  onBase (assertCompliant buyer)
  let stored ← read (getNftByToken · tokenId)
  let nft ← expect stored (.error .nftNotFound)
  let vault ← onBase (loadVault nft.vaultId)
  sell env tokenId buyer vault.tokenAddress price

inductive NftCall
  | base (call : Call)
  | setNftMetadata (vaultId : VaultId) (caller : Address) (metadata : String)
  | buyNft (tokenId : Nat) (buyer : Address) (price : Int)

structure NftInput where
  env : Env
  call : NftCall

/-- The other calls of the contract; only the creation of a vault concerns the tokens. -/
def execBase : Call → NftTx Unit
  | .createVault a b c d => do
    let _ ← createVault env a b c d
    pure ()
  | call => onBase (exec env call)

def execNft (input : NftInput) : NftTx Unit :=
  match input.call with
  | .base call => execBase input.env call
  | .setNftMetadata a caller b => setNftMetadata input.env a caller b
  | .buyNft a b c => do
    let _ ← buyNft input.env a b c
    pure ()

abbrev NftEvent : Type := Event NftState NftInput

abbrev NftRun (xlmToken admin : Address) (ledger : Ledger Address Address) :
    List NftEvent → NftState → Prop :=
  Run (Executes execNft) { base := initialState xlmToken admin ledger }

/-! ### Consent -/

/-- What a holder has agreed to after some calls: a token, and a price for it. -/
abbrev Agreement : Type := List NftEvent → Address → Nat → Int → Prop

/-- **A token changes hands only with its holder's consent**: in a call that the holder authorised,
or for a price that the holder had agreed to. -/
def Consented (agreed : Agreement) (earlier : List NftEvent) (event : NftEvent) : Prop :=
  ∀ vaultId nft sold, event.before.byVault vaultId = some nft →
    event.after.byVault vaultId = some sold → sold.owner ≠ nft.owner →
    nft.owner ∈ event.input.env.signers ∨
      ∃ price, sold.lastSalePrice = some price ∧ agreed earlier nft.owner nft.tokenId price

/-- The sale of a token that the holder authorised, or agreed to beforehand. -/
def SaleAgreed (agreed : Agreement) (earlier : List NftEvent) (event : NftEvent) : Prop :=
  ∀ tokenId buyer price, event.input.call = .buyNft tokenId buyer price →
    ∀ nft ∈ getNftByToken event.before tokenId,
      nft.owner ∈ event.input.env.signers ∨ agreed earlier nft.owner tokenId price

/-! ### What one call does -/

/-- The call is no purchase. -/
def NftCall.NoSale (call : NftCall) : Prop :=
  ∀ tokenId buyer price, call ≠ .buyNft tokenId buyer price

/-- **What one call does to the tokens**: it mints one for a new vault, edits one for its holder,
sells one, or leaves them alone. -/
inductive NftStep (input : NftInput) (s t : NftState) : Prop
  | mints (nft : VaultNft) (call : input.call.NoSale) (fresh : s.base.vaultCount < nft.vaultId)
      (counted : nft.vaultId ≤ t.base.vaultCount)
      (byVault : t.byVault = update s.byVault nft.vaultId (some nft))
      (vaultOfToken : t.vaultOfToken = update s.vaultOfToken nft.tokenId (some nft.vaultId))
  | edits (vaultId nft metadata) (call : input.call.NoSale) (stored : s.byVault vaultId = some nft)
      (byVault : t.byVault = update s.byVault nft.vaultId (some { nft with metadata := metadata }))
      (vaultOfToken : t.vaultOfToken = s.vaultOfToken)
  | sells (tokenId buyer price nft) (call : input.call = .buyNft tokenId buyer price)
      (stored : getNftByToken s tokenId = some nft) (other : nft.owner ≠ buyer)
      (byVault : t.byVault = update s.byVault nft.vaultId
        (some { nft with owner := buyer, lastSalePrice := some price }))
      (vaultOfToken : t.vaultOfToken = s.vaultOfToken)
  | keeps (call : input.call.NoSale) (byVault : t.byVault = s.byVault)
      (vaultOfToken : t.vaultOfToken = s.vaultOfToken)

section Step

variable {env : Env} {s : NftState}

@[simp] theorem wp_onBase {α : Type} (x : Contract α) (Q : α → NftState → Prop) :
    (onBase x).wp s Q ↔ x.wp s.base fun a base => Q a { s with base := base } := by
  unfold onBase
  rw [wp_zoom]

theorem createVault_id (owner beneficiary : Address) (interval : Nat) (token : Option Address)
    (base : State) :
    (TtlVault.createVault env owner beneficiary interval token).wp base fun id t =>
      id = base.vaultCount + 1 ∧ t.vaultCount = id := by
  simp only [TtlVault.createVault, initPasskeys, assertOwnerCapacity, addOwnerVaultId,
    addBeneficiaryVaultId, setVaultDuplicate, wp_rules]
  intros
  exact (chooseToken_readonly token).wp fun chosen _ => ⟨rfl, trivial⟩

theorem createVault_step (owner beneficiary : Address) (interval : Nat) (token : Option Address) :
    (createVault env owner beneficiary interval token).wp s fun _ t =>
      NftStep ⟨env, .base (.createVault owner beneficiary interval token)⟩ s t := by
  simp only [createVault, mintForVault, nextTokenId, storeNft, wp_core, wp_onBase]
  refine (createVault_id owner beneficiary interval token s.base).mono ?_
  rintro id t ⟨new, counted⟩ _
  refine .mints ⟨s.counter + 1, id, owner, owner, "", env.now, none⟩ ?_ ?_ ?_ rfl rfl
  · intro tokenId buyer price impossible
    cases impossible
  · rw [new]
    exact Nat.lt_succ_self s.base.vaultCount
  · exact counted.ge

theorem setNftMetadata_step (id : VaultId) (caller : Address) (metadata : String) :
    (setNftMetadata env id caller metadata).wp s fun _ t =>
      NftStep ⟨env, .setNftMetadata id caller metadata⟩ s t := by
  simp only [setNftMetadata, storeMetadata, storeNft, getVaultNft, wp_core, wp_onBase, wp_rules]
  intro _ _ _ _ _ nft stored
  refine .edits id nft metadata ?_ stored rfl rfl
  intro tokenId buyer price impossible
  cases impossible

theorem buyNft_step (buyer : Address) (price : Int) : (buyNft env tokenId buyer price).wp s fun _ t
    => NftStep ⟨env, .buyNft tokenId buyer price⟩ s t := by
  simp only [buyNft, sell, storeNft, wp_core, wp_onBase, wp_rules]
  intro _ _ _ _ _ _ _ nft stored other _ _ _
  exact .sells tokenId buyer price nft rfl stored other rfl rfl

theorem execNft_step {input : NftInput} : (execNft input).wp s fun _ t => NftStep input s t := by
  obtain ⟨env, call⟩ := input
  unfold execNft
  cases call with
  | setNftMetadata id caller metadata => exact setNftMetadata_step id caller metadata
  | buyNft tokenId buyer price =>
    simp only [wp_core]
    exact buyNft_step tokenId buyer price
  | base call =>
    simp only [execBase.eq_def]
    split
    · simp only [wp_core]
      exact createVault_step _ _ _ _
    · rw [wp_onBase]
      refine fun _ t _ => .keeps ?_ rfl rfl
      intro tokenId buyer price impossible
      cases impossible

theorem execNft_base {input : NftInput} (regular : s.base.Regular) :
    (execNft input).wp s fun _ t => t.base.Regular ∧ s.base.vaultCount ≤ t.base.vaultCount := by
  obtain ⟨env, call⟩ := input
  have executed : ∀ call, (exec env call).wp s.base fun _ base =>
      base.Regular ∧ s.base.vaultCount ≤ base.vaultCount := by
    refine fun call => (exec_effect env regular call).mono fun _ base effect => ?_
    exact ⟨⟨effect.counted_after regular.counted, effect.staking regular.unstaked⟩, effect.counted⟩
  unfold execNft
  cases call with
  | setNftMetadata =>
    simp only [setNftMetadata, storeMetadata, storeNft, wp_core, wp_onBase, wp_rules]
    intros
    exact ⟨regular, le_rfl⟩
  | buyNft =>
    simp only [buyNft, sell, storeNft, wp_core, wp_onBase, wp_rules]
    intros
    exact ⟨⟨regular.counted, regular.unstaked⟩, le_rfl⟩
  | base call =>
    simp only [execBase.eq_def]
    split
    · rename_i owner beneficiary interval token
      have created := executed (.createVault owner beneficiary interval token)
      simp only [exec.eq_def, wp_core] at created
      simp only [createVault, mintForVault, nextTokenId, storeNft, wp_core, wp_onBase]
      exact created.mono fun _ _ holds _ => holds
    · rw [wp_onBase]
      exact executed _

end Step

/-! ### Every run -/

/-- Every token is stored under its vault and found by its id, and all vaults are counted. -/
structure Minted (s : NftState) : Prop where
  regular : s.base.Regular
  keyed : ∀ vaultId nft, s.byVault vaultId = some nft →
    nft.vaultId = vaultId ∧ vaultId ≤ s.base.vaultCount
  lookup : ∀ tokenId vaultId, s.vaultOfToken tokenId = some vaultId →
    ∃ nft, s.byVault vaultId = some nft ∧ nft.tokenId = tokenId

namespace Minted

variable {s t : NftState}

variable {nft : VaultNft}

variable (minted : Minted s)
include minted

theorem byToken {tokenId : Nat} (stored : getNftByToken s tokenId = some nft) :
    nft.tokenId = tokenId ∧ s.byVault nft.vaultId = some nft := by
  obtain ⟨id, named, kept⟩ := Option.bind_eq_some_iff.mp stored
  unfold getVaultNft at kept
  obtain ⟨other, same, token⟩ := minted.lookup tokenId id named
  cases kept.symm.trans same
  rw [(minted.keyed id nft kept).1]
  exact ⟨token, kept⟩

theorem write (counted : nft.vaultId ≤ t.base.vaultCount)
    (count : s.base.vaultCount ≤ t.base.vaultCount)
    (byVault : t.byVault = update s.byVault nft.vaultId (some nft)) :
    ∀ id other, t.byVault id = some other → other.vaultId = id ∧ id ≤ t.base.vaultCount := by
  rw [byVault]
  refine forall_entries_update (fun id other _ kept => ?_) ⟨rfl, counted⟩
  obtain ⟨own, bound⟩ := minted.keyed id other kept
  exact ⟨own, bound.trans count⟩

theorem replace (edited : VaultNft) {vaultId : VaultId} (stored : s.byVault vaultId = some nft)
    (vault : edited.vaultId = nft.vaultId) (token : edited.tokenId = nft.tokenId)
    (regular : t.base.Regular) (count : s.base.vaultCount ≤ t.base.vaultCount)
    (byVault : t.byVault = update s.byVault nft.vaultId (some edited))
    (vaultOfToken : t.vaultOfToken = s.vaultOfToken) : Minted t := by
  obtain ⟨rfl, counted⟩ := minted.keyed vaultId nft stored
  rw [← vault] at stored counted byVault
  refine ⟨regular, minted.write (counted.trans count) count byVault, ?_⟩
  intro tokenId id named
  rw [vaultOfToken] at named
  obtain ⟨other, kept, is⟩ := minted.lookup tokenId id named
  rw [byVault]
  by_cases same : id = edited.vaultId
  · subst same
    cases kept.symm.trans stored
    exact ⟨edited, update_self .., token.trans is⟩
  · exact ⟨other, (update_of_ne same ..).trans kept, is⟩

theorem mint (fresh : s.base.vaultCount < nft.vaultId) (counted : nft.vaultId ≤ t.base.vaultCount)
    (regular : t.base.Regular) (count : s.base.vaultCount ≤ t.base.vaultCount)
    (byVault : t.byVault = update s.byVault nft.vaultId (some nft))
    (vaultOfToken : t.vaultOfToken = update s.vaultOfToken nft.tokenId (some nft.vaultId)) :
    Minted t := by
  refine ⟨regular, minted.write counted count byVault, ?_⟩
  rw [vaultOfToken, byVault]
  refine forall_entries_update (fun tokenId id _ named => ?_) ⟨nft, update_self .., rfl⟩
  obtain ⟨other, kept, is⟩ := minted.lookup tokenId id named
  have old : id ≠ nft.vaultId := ((minted.keyed id other kept).2.trans_lt fresh).ne
  exact ⟨other, (update_of_ne old ..).trans kept, is⟩

theorem step {input : NftInput} (ran : execNft input s = .ok ((), t)) : Minted t := by
  obtain ⟨regular, count⟩ := execNft_base minted.regular () t ran
  cases execNft_step () t ran with
  | mints nft _ fresh counted byVault vaultOfToken =>
    exact minted.mint fresh counted regular count byVault vaultOfToken
  | edits vaultId nft metadata _ stored byVault vaultOfToken =>
    exact minted.replace { nft with metadata := metadata } stored rfl rfl regular count byVault
      vaultOfToken
  | sells tokenId buyer price nft _ stored _ byVault vaultOfToken =>
    exact minted.replace { nft with owner := buyer, lastSalePrice := some price }
      (minted.byToken stored).2 rfl rfl regular count byVault vaultOfToken
  | keeps _ byVault vaultOfToken =>
    refine ⟨regular, fun id nft kept => ?_, fun tokenId id named => ?_⟩
    · rw [byVault] at kept
      exact ⟨(minted.keyed id nft kept).1, (minted.keyed id nft kept).2.trans count⟩
    · rw [vaultOfToken] at named
      rw [byVault]
      exact minted.lookup tokenId id named

end Minted

section Runs

variable {xlmToken admin : Address} {ledger : Ledger Address Address} {history : List NftEvent}
  {s : NftState} {agreed : Agreement}

theorem run_minted_before (run : NftRun xlmToken admin ledger history s) :
    ∀ event ∈ history, Minted event.before := by
  refine run.invariant_before Minted (fun _ _ => True) ?_ (fun _ _ _ minted _ ran => minted.step ran)
    (fun _ _ => trivial)
  exact ⟨initialState_regular xlmToken admin ledger, by simp, by simp⟩

theorem owner_kept {event : NftEvent} (minted : Minted event.before)
    (ran : execNft event.input event.before = .ok ((), event.after))
    (noSale : event.input.call.NoSale) {vaultId : VaultId} {nft sold : VaultNft}
    (before : event.before.byVault vaultId = some nft)
    (after : event.after.byVault vaultId = some sold) : sold.owner = nft.owner := by
  obtain ⟨own, counted⟩ := minted.keyed vaultId nft before
  cases execNft_step () _ ran with
  | mints new _ fresh _ byVault _ =>
    have other : vaultId ≠ new.vaultId := (counted.trans_lt fresh).ne
    rw [byVault, update_of_ne other, before, Option.some.injEq] at after
    rw [after]
  | edits id edited metadata _ stored byVault _ =>
    rw [byVault] at after
    rcases update_eq_some_iff.mp after with ⟨rfl, rfl⟩ | ⟨-, kept⟩
    · obtain ⟨rfl, -⟩ := minted.keyed id edited stored
      cases before.symm.trans stored
      rfl
    · cases before.symm.trans kept
      rfl
  | sells tokenId buyer price _ call => exact absurd call (noSale tokenId buyer price)
  | keeps _ byVault _ =>
    rw [byVault, before, Option.some.injEq] at after
    rw [after]

theorem sale_consented_iff {earlier : List NftEvent} {event : NftEvent}
    (minted : Minted event.before)
    (ran : execNft event.input event.before = .ok ((), event.after)) {tokenId : Nat}
    {buyer : Address} {price : Int} (call : event.input.call = .buyNft tokenId buyer price) :
    Consented agreed earlier event ↔ SaleAgreed agreed earlier event := by
  cases execNft_step () _ ran with
  | mints _ noSale | edits _ _ _ noSale | keeps noSale => exact absurd call (noSale _ _ _)
  | sells id purchaser paid nft called stored other byVault _ =>
    obtain ⟨rfl, kept⟩ := minted.byToken stored
    constructor
    · intro consented id' buyer' price' called' found member
      obtain ⟨rfl, rfl, rfl⟩ := NftCall.buyNft.inj (called.symm.trans called')
      obtain rfl := Option.mem_unique stored member
      have after : event.after.byVault nft.vaultId =
          some { nft with owner := purchaser, lastSalePrice := some paid } := by
        rw [byVault, update_self]
      rcases consented nft.vaultId nft _ kept after (Ne.symm other) with signed | ⟨amount, same, yes⟩
      · exact .inl signed
      · obtain rfl := Option.some.inj same
        exact .inr yes
    · intro sale vaultId held sold before after moved
      rw [byVault] at after
      rcases update_eq_some_iff.mp after with ⟨rfl, rfl⟩ | ⟨-, same⟩
      · obtain rfl := Option.mem_unique before kept
        rcases sale _ _ _ called held stored with signed | yes
        · exact .inl signed
        · exact .inr ⟨paid, rfl, yes⟩
      · obtain rfl := Option.mem_unique before same
        exact absurd rfl moved

/-- **When vault NFTs change hands with consent only.** In every run, for every notion of agreement:
exactly if every sale comes with the holder's authorisation or at a price that the holder had agreed
to. -/
theorem consented_iff (run : NftRun xlmToken admin ledger history s) :
    (∀ earlier event later, history = earlier ++ event :: later → Consented agreed earlier event) ↔
      ∀ earlier event later, history = earlier ++ event :: later →
        SaleAgreed agreed earlier event := by
  refine forall₄_congr fun earlier event later whole => ?_
  have member : event ∈ history := by
    rw [whole]
    exact List.mem_append_cons_self
  have minted := run_minted_before run event member
  have ran : execNft event.input event.before = .ok ((), event.after) := run.stepped event member
  by_cases sale : ∃ tokenId buyer price, event.input.call = .buyNft tokenId buyer price
  · obtain ⟨tokenId, buyer, price, call⟩ := sale
    exact sale_consented_iff minted ran call
  · have noSale : event.input.call.NoSale :=
      fun tokenId buyer price call => sale ⟨tokenId, buyer, price, call⟩
    constructor
    · intro _ tokenId buyer price call
      exact absurd call (noSale tokenId buyer price)
    · intro _ vaultId nft sold before after moved
      exact absurd (owner_kept minted ran noSale before after) moved

end Runs

/-! ### Two sales -/

def nftInputs (calls : List (Nat × List Address × NftCall)) : List NftInput :=
  calls.map fun (now, signers, call) => ⟨plainEnv now signers, call⟩

def tokenMinted : List NftInput :=
  nftInputs [(1000, [⟨4⟩], .base (.createVault ⟨4⟩ ⟨5⟩ 600 none))]

def soldTo3 (signers : List Address) : NftEvent :=
  playNext execNft { base := fundedState } tokenMinted ⟨plainEnv 1001 signers, .buyNft 1 ⟨3⟩ 1⟩

def saleHistory (signers : List Address) : List NftEvent :=
  (play execNft { base := fundedState } tokenMinted).1 ++ [soldTo3 signers]

def noAgreement : Agreement := fun _ _ _ _ => False

theorem saleHistory_run {signers : List Address}
    (ok : (execNft ⟨plainEnv 1001 signers, .buyNft 1 ⟨3⟩ 1⟩
      (play execNft { base := fundedState } tokenMinted).2).isOk = true) :
    NftRun ⟨1⟩ ⟨2⟩ fundedState.ledger (saleHistory signers) (soldTo3 signers).after :=
  .snoc (play_executes _ _ _) (Tx.eq_ok_after ok)

/-- The holder authorises the sale. -/
theorem consented_authorisedSale :
    (soldTo3 [⟨3⟩, ⟨4⟩]).after.byVault 1 = some ⟨1, 1, ⟨4⟩, ⟨3⟩, "", 1000, some 1⟩ ∧
      ∀ earlier event later, saleHistory [⟨3⟩, ⟨4⟩] = earlier ++ event :: later →
        Consented noAgreement earlier event := by
  refine ⟨by decide +kernel, (consented_iff (saleHistory_run (by decide +kernel))).mpr ?_⟩
  intro earlier event later whole tokenId buyer price call nft stored
  have member : event ∈ saleHistory [⟨3⟩, ⟨4⟩] := by
    rw [whole]
    exact List.mem_append_cons_self
  rcases member with _ | ⟨_, _ | ⟨_, none⟩⟩
  · -- the only earlier call opens the vault
    cases call
  · cases call
    cases stored
    exact .inl (by decide)
  · cases none

/-- **A token is taken for 1**: its holder has authorised nothing since it was minted, and has
agreed to nothing. -/
theorem sold_without_consent :
    NftRun ⟨1⟩ ⟨2⟩ fundedState.ledger (saleHistory [⟨3⟩]) (soldTo3 [⟨3⟩]).after ∧
      getNftOwner (soldTo3 [⟨3⟩]).before 1 = some ⟨4⟩ ∧
      getNftOwner (soldTo3 [⟨3⟩]).after 1 = some ⟨3⟩ ∧
      ¬ ∀ earlier event later, saleHistory [⟨3⟩] = earlier ++ event :: later →
        Consented noAgreement earlier event := by
  refine ⟨saleHistory_run (by decide +kernel), by decide +kernel, by decide +kernel, ?_⟩
  intro consented
  have before : (soldTo3 [⟨3⟩]).before.byVault 1 = some ⟨1, 1, ⟨4⟩, ⟨4⟩, "", 1000, none⟩ := by
    decide +kernel
  have after : (soldTo3 [⟨3⟩]).after.byVault 1 = some ⟨1, 1, ⟨4⟩, ⟨3⟩, "", 1000, some 1⟩ := by
    decide +kernel
  rcases consented _ (soldTo3 [⟨3⟩]) [] rfl 1 _ _ before after (by decide) with signed | ⟨_, _, no⟩
  · revert signed
    decide
  · exact no

/-! ### The chain of title -/

/-- **The first `n` sales lead from the minter to the holder**: each seller is the buyer before. -/
inductive Title (sales : Nat → Option NftSale) (minter : Address) : Nat → Address → Prop
  | minted : Title sales minter 0 minter
  | sold {n sale} (title : Title sales minter n sale.seller) (stored : sales (n + 1) = some sale) :
      Title sales minter (n + 1) sale.buyer

theorem Title.record {sales : Nat → Option NftSale} {minter holder : Address} {n k : Nat}
    (title : Title sales minter n holder) (later : n < k) (sale : NftSale) :
    Title (update sales k (some sale)) minter n holder := by
  induction title with
  | minted => exact .minted
  | sold _ stored ih =>
    refine .sold (ih (by omega)) ?_
    rw [update_of_ne (by omega), stored]

/-- The sales of every token lead from its minter to its owner. -/
structure Titled (s : NftState) : Prop where
  fresh : ∀ tokenId, s.counter < tokenId → s.vaultOfToken tokenId = none ∧ s.saleCount tokenId = 0
  title : ∀ tokenId vaultId nft, s.vaultOfToken tokenId = some vaultId →
    s.byVault vaultId = some nft →
    Title (s.sale tokenId) nft.minter (s.saleCount tokenId) nft.owner

namespace Titled

variable {s : NftState} {env : Env} (titled : Titled s) (minted : Minted s)
include titled minted

theorem createVault (owner beneficiary : Address) (interval : Nat) (token : Option Address) :
    (Nft.createVault env owner beneficiary interval token).wp s fun _ t => Titled t := by
  simp only [Nft.createVault, mintForVault, nextTokenId, storeNft, wp_core, wp_onBase]
  refine (createVault_id owner beneficiary interval token s.base).mono ?_
  rintro id base ⟨rfl, -⟩ _
  refine ⟨fun tokenId beyond => ?_, fun tokenId vaultId nft named stored => ?_⟩
  · obtain ⟨unknown, unsold⟩ := titled.fresh tokenId ((Nat.lt_succ_self _).trans beyond)
    exact ⟨(update_of_ne (ne_of_gt beyond) ..).trans unknown, unsold⟩
  · rcases update_eq_some_iff.mp named with ⟨rfl, rfl⟩ | ⟨-, old⟩
    · cases (update_self ..).symm.trans stored
      show Title _ _ (s.saleCount (s.counter + 1)) _
      rw [(titled.fresh _ (Nat.lt_succ_self _)).2]
      exact .minted
    · obtain ⟨other, kept, -⟩ := minted.lookup tokenId vaultId old
      have counted := (minted.keyed vaultId other kept).2
      refine titled.title tokenId vaultId nft old ?_
      exact (update_of_ne (Nat.lt_succ_of_le counted).ne ..).symm.trans stored

theorem setNftMetadata (id : VaultId) (caller : Address) (metadata : String) :
    (Nft.setNftMetadata env id caller metadata).wp s fun _ t => Titled t := by
  simp only [Nft.setNftMetadata, storeMetadata, storeNft, getVaultNft, wp_core, wp_onBase, wp_rules]
  intro _ _ _ _ _ edited found
  refine ⟨titled.fresh, fun tokenId vaultId nft named stored => ?_⟩
  rcases update_eq_some_iff.mp stored with ⟨rfl, rfl⟩ | ⟨-, kept⟩
  · obtain ⟨rfl, -⟩ := minted.keyed id edited found
    exact titled.title tokenId edited.vaultId edited named found
  · exact titled.title tokenId vaultId nft named kept

theorem buyNft (id : Nat) (buyer : Address) (price : Int) :
    (Nft.buyNft env id buyer price).wp s fun _ t => Titled t := by
  simp only [Nft.buyNft, sell, storeNft, wp_core, wp_onBase, wp_rules]
  intro _ _ _ _ _ _ _ sold found _ _ _ _
  obtain ⟨home, known, present⟩ := Option.bind_eq_some_iff.mp found
  obtain ⟨rfl, -⟩ := minted.keyed home sold present
  obtain ⟨rfl, -⟩ := minted.byToken found
  refine ⟨fun tokenId beyond => ?_, fun tokenId vaultId nft named stored => ?_⟩
  · obtain ⟨unknown, unsold⟩ := titled.fresh tokenId beyond
    refine ⟨unknown, (update_of_ne ?_ ..).trans unsold⟩
    rintro rfl
    cases unknown.symm.trans known
  · obtain ⟨holder, listed, rfl⟩ := minted.lookup tokenId vaultId named
    rcases update_eq_some_iff.mp stored with ⟨rfl, rfl⟩ | ⟨other, kept⟩
    · cases present.symm.trans listed
      have title := titled.title sold.tokenId sold.vaultId sold named present
      simp only [update_self]
      exact .sold (title.record (Nat.lt_succ_self _) _) (update_self ..)
    · cases kept.symm.trans listed
      have apart : nft.tokenId ≠ sold.tokenId := by
        intro same
        rw [same, known] at named
        exact other (Option.some.inj named).symm
      simp only [update_of_ne apart]
      exact titled.title nft.tokenId vaultId nft named kept

theorem step {input : NftInput} : (execNft input).wp s fun _ t => Titled t := by
  obtain ⟨env, call⟩ := input
  unfold execNft
  cases call with
  | setNftMetadata id caller metadata => exact titled.setNftMetadata minted id caller metadata
  | buyNft tokenId buyer price =>
    simp only [wp_core]
    exact titled.buyNft minted tokenId buyer price
  | base call =>
    simp only [execBase.eq_def]
    split
    · simp only [wp_core]
      exact titled.createVault minted _ _ _ _
    · rw [wp_onBase]
      exact fun _ _ _ => ⟨titled.fresh, titled.title⟩

end Titled

/-- **The recorded sales of a token lead from its minter to its holder.** -/
theorem sales_title {xlmToken admin : Address} {ledger : Ledger Address Address}
    {history : List NftEvent} {s : NftState} (run : NftRun xlmToken admin ledger history s)
    {tokenId : Nat} {nft : VaultNft} (found : getNftByToken s tokenId = some nft) :
    Title (s.sale tokenId) nft.minter (s.saleCount tokenId) nft.owner := by
  have both : Minted s ∧ Titled s := by
    refine run.invariant (fun s => Minted s ∧ Titled s) (fun _ _ => True) ?_ ?_ fun _ _ => trivial
    · exact ⟨⟨initialState_regular xlmToken admin ledger, by simp, by simp⟩, by simp, by simp⟩
    · rintro u input t ⟨minted, titled⟩ - ran
      exact ⟨minted.step ran, titled.step minted () t ran⟩
  obtain ⟨vaultId, named, stored⟩ := Option.bind_eq_some_iff.mp found
  exact both.2.title tokenId vaultId nft named stored

theorem sales_title_soldTo3 : Title ((soldTo3 [⟨3⟩]).after.sale 1) ⟨4⟩ 1 ⟨3⟩ := by
  have found : getNftByToken (soldTo3 [⟨3⟩]).after 1 =
    some ⟨1, 1, ⟨4⟩, ⟨3⟩, "", 1000, some 1⟩ := by decide +kernel
  exact sales_title (saleHistory_run (by decide +kernel)) found

end Nft

end EthosContracts.TtlVault
