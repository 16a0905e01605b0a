/-
**Compressed vaults (`vault_compression.rs`, `try_load_vault`, `save_vault`).**

A vault that has been idle may be stored compressed: run-length encoded XDR under a key of its own,
in the place of the plain entry. Loading falls back to the compressed entry, saving discards it.
-/

import EthosContracts.Lib.Simulation
import EthosContracts.TtlVault.DiffCodec
import EthosContracts.TtlVault.Storage
import EthosContracts.TtlVault.Xdr

namespace EthosContracts.TtlVault.Compression

open Lib Function

/-! ### Storage -/

def defaultInactivityDays : Nat := 90

def secondsPerDay : Nat := 86400

def vaultTtlFloor : Nat := 200000

def maxPersistentTtl : Nat := 3110400

def ledgerSecond : Nat := 5

def vaultTtlLedgers (checkInInterval : Nat) : Nat :=
  let ledgers := min (min checkInInterval maxU32 * 2) maxU32 / ledgerSecond
  min (max ledgers vaultTtlFloor) maxPersistentTtl

structure CompressedVault where
  data : Bytes
  originalSize : Nat
  compressedSize : Nat
  compressedAt : Nat
  contentHash : Hash
  ttlLedgers : Nat

/-- The storage with both representations; `base.vaults` are the plain entries. `lastSaved` records
what `save_vault` was last called with and is read by nothing. -/
structure StoredState where
  /-- The contract's storage; its vaults are the plain entries. -/
  base : State
  compressed : VaultId → Option CompressedVault := fun _ => none
  inactivityDays : Option Nat := none
  /-- The snapshots of archived vaults, under `ArchivedVault`. -/
  archivedVault : VaultId → Option Vault := fun _ => none
  /-- What was last saved. -/
  lastSaved : VaultId → Option Vault

abbrev StoredTx (α : Type) : Type := Tx Failure StoredState α

def StoredState.plain (base : State) : StoredState := { base := base, lastSaved := base.vaults }

def StoredState.rest (s : StoredState) : State := { s.base with vaults := fun _ => none }

section Functions

variable (host : Host) (xdr : VaultXdr)

/-! ### Loading and saving -/

def decode (c : CompressedVault) : Except Failure Vault :=
  match rleDecodeBuf c.data with
  | none => .error (.error .compressionCorrupted)
  | some bytes =>
    if bytes.length ≠ c.originalSize ∨ host.sha256 bytes ≠ c.contentHash then
      .error (.error .compressionCorrupted)
    else
      match xdr.vault.decode bytes with
      | some vault => .ok vault
      | none => .error (.error .compressionCorrupted)

def loadDecompressed (s : StoredState) (id : VaultId) : Except Failure (Option Vault) :=
  match s.compressed id with
  | some c => (decode host xdr c).map some
  | none => .ok none

def tryLoadVault (s : StoredState) (id : VaultId) : Except Failure (Option Vault) :=
  match s.base.vaults id with
  | some vault => .ok (some vault)
  | none => loadDecompressed host xdr s id

def loadVault (id : VaultId) : StoredTx Vault := do
  let vault ← consult (tryLoadVault host xdr · id)
  expect vault (.error .vaultNotFound)

/-- The state with a saved vault: the plain entry is written, a compressed one discarded. -/
def StoredState.save (s : StoredState) (id : VaultId) (vault : Vault) : StoredState :=
  { s with
    base.vaults := update s.base.vaults id (some vault)
    compressed := update s.compressed id none
    lastSaved := update s.lastSaved id (some vault) }

def saveVault (id : VaultId) (vault : Vault) : StoredTx Unit :=
  write (·.save id vault)

/-! ### Maintenance -/

def compressedOf (now ttlLedgers : Nat) (vault : Vault) : CompressedVault :=
  let bytes := xdr.vault.encode vault
  { data := rleEncodeBuf bytes
    originalSize := bytes.length
    compressedSize := (rleEncodeBuf bytes).length
    compressedAt := now
    contentHash := host.sha256 bytes
    ttlLedgers := ttlLedgers }

/-- The state with a compressed entry in the place of the plain one. -/
def StoredState.compress (s : StoredState) (id : VaultId) (c : CompressedVault) :
    StoredState :=
  { s with
    base.vaults := update s.base.vaults id none
    compressed := update s.compressed id (some c) }

def compress (now : Nat) (id : VaultId) (ttlLedgers : Nat) : StoredTx Bool := do
  let existing ← read (·.compressed id)
  if existing.isSome then
    pure false
  else
    let stored ← read (·.base.vaults id)
    let vault ← expect stored (.error .vaultNotFound)
    let days ← read (·.inactivityDays)
    if now - vault.lastCheckIn < days.getD defaultInactivityDays * secondsPerDay then
      pure false
    else if (xdr.vault.encode vault).length ≤ (rleEncodeBuf (xdr.vault.encode vault)).length then
      pure false
    else
      write (·.compress id (compressedOf host xdr now ttlLedgers vault))
      pure true

def compressVault (now : Nat) (id : VaultId) : StoredTx Bool := do
  let vault ← loadVault host xdr id
  compress host xdr now id (vaultTtlLedgers vault.checkInInterval)

def decompressVault (id : VaultId) : StoredTx Bool := do
  let vault ← consult (loadDecompressed host xdr · id)
  match vault with
  | some vault => do
    saveVault id vault
    pure true
  | none => pure false

def restoreVault (env : Env) (id : VaultId) (caller : Address) : StoredTx Unit := do
  ensure (caller ≠ env.self ∧ caller ∈ env.signers) .unauthorized
  let stored ← read (·.base.config.admin)
  let admin ← expect stored (.error .notInitialized)
  let vault ← loadVault host xdr id
  ensure (caller = vault.owner ∨ caller = admin) (.error .notOwner)
  saveVault id vault
  write fun s => { s with archivedVault := update s.archivedVault id none }

/-- `try_restore_archived_vault`, which looks at the plain entry only. -/
def tryRestoreArchivedVault (id : VaultId) : StoredTx Unit :=
  write fun s =>
    if (s.archivedVault id).isSome ∧ (s.base.vaults id).isSome then
      { s with archivedVault := update s.archivedVault id none }
    else s

/-! ### Calls -/

end Functions

/-- A call, by what it does to the storage. `get_archived_vault_info` is not among the calls: what
it reads, `archivedVault`, is not compared. -/
inductive Program (α : Type) : Type
  | done (result : α)
  | fail (failure : Failure)
  | load (id : VaultId) (next : Option Vault → Program α)
  | save (id : VaultId) (vault : Vault) (next : Program α)
  /-- Reads anything but the vaults. -/
  | access (next : State → Program α)
  /-- Changes anything but the vaults. -/
  | change (update : State → State) (next : Program α)
  | getInactivityDays (next : Nat → Program α)
  | setInactivityDays (days : Nat) (next : Program α)
  | archiveVault (id : VaultId) (vault : Vault) (next : Program α)
  | tryRestoreArchivedVault (id : VaultId) (next : Program α)

/-- What happens to a contract with compressed vaults. -/
inductive Operation (α : Type) : Type
  | call (program : Program α)
  | compressVault (now : Nat) (id : VaultId)
  | decompressVault (id : VaultId)
  | restoreVault (env : Env) (id : VaultId) (caller : Address)

/-- A change of the representation of vaults only. -/
def Operation.isMaintenance {α : Type} : Operation α → Bool
  | .call _ => false
  | .compressVault _ _ => true
  | .decompressVault _ => true
  | .restoreVault _ _ _ => true

section Runs

variable {α : Type} (host : Host) (xdr : VaultXdr)

def Program.run : Program α → StoredTx α
  | .done result => pure result
  | .fail failure => Lib.fail failure
  | .load id next => do
    let vault ← consult (tryLoadVault host xdr · id)
    (next vault).run
  | .save id vault next => do
    saveVault id vault
    next.run
  | .access next => do
    let rest ← read StoredState.rest
    (next rest).run
  | .change update next => do
    write fun s => { s with base := { update s.rest with vaults := s.base.vaults } }
    next.run
  | .getInactivityDays next => do
    let days ← read (·.inactivityDays)
    (next (days.getD defaultInactivityDays)).run
  | .setInactivityDays days next => do
    write fun s => { s with inactivityDays := some days }
    next.run
  | .archiveVault id vault next => do
    write fun s => { s with archivedVault := update s.archivedVault id (some vault) }
    next.run
  | .tryRestoreArchivedVault id next => do
    Compression.tryRestoreArchivedVault id
    next.run

/-- The result of a call and the state after it; a failing one leaves no trace. -/
def settle (outcome : Except Failure (α × StoredState)) (s : StoredState) :
    List (Except Failure α) × StoredState :=
  match outcome with
  | .ok (result, t) => ([.ok result], t)
  | .error a => ([.error a], s)

/-- An operation, with the result if it is a call. -/
def perform (operation : Operation α) (s : StoredState) : List (Except Failure α) × StoredState :=
  match operation with
  | .call program => settle (program.run host xdr s) s
  | .compressVault now id => ([], (Compression.compressVault host xdr now id).after s)
  | .decompressVault id => ([], (Compression.decompressVault host xdr id).after s)
  | .restoreVault env id caller =>
    ([], (Compression.restoreVault host xdr env id caller).after s)

def performAll : List (Operation α) → StoredState → List (Except Failure α) × StoredState
  | [], s => ([], s)
  | operation :: later, s =>
    let (here, t) := perform host xdr operation s
    let (others, u) := performAll later t
    (here ++ others, u)

end Runs

/-! ### The round trip of a compressed entry -/

variable {host : Host} {xdr : VaultXdr}

theorem decode_compressedOf (now ttlLedgers : Nat) (vault : Vault) :
    decode host xdr (compressedOf host xdr now ttlLedgers vault) = .ok vault := by
  unfold decode compressedOf
  simp only [rleDecodeBuf_rleEncodeBuf, xdr.vault.decode_encode]
  simp

/-! ### Loading gives what was saved -/

/-- Every vault has at most one entry, and loading it gives what was last saved. -/
structure Faithful (host : Host) (xdr : VaultXdr) (s : StoredState) : Prop where
  single : ∀ id, s.base.vaults id = none ∨ s.compressed id = none
  loads : ∀ id, tryLoadVault host xdr s id = .ok (s.lastSaved id)

theorem faithful_plain (base : State) : Faithful host xdr (.plain base) where
  single _ := Or.inr rfl
  loads id := by
    show tryLoadVault host xdr (.plain base) id = .ok (base.vaults id)
    unfold tryLoadVault StoredState.plain
    cases base.vaults id with
    | none => rfl
    | some vault => rfl

variable {α : Type} {s t : StoredState} {id : VaultId} {vault : Vault}

theorem tryLoadVault_congr {id : VaultId}
    (plain : s.base.vaults id = t.base.vaults id) (packed : s.compressed id = t.compressed id) :
    tryLoadVault host xdr s id = tryLoadVault host xdr t id := by
  unfold tryLoadVault loadDecompressed
  rw [plain, packed]

section

variable (faithful : Faithful host xdr s)
include faithful

theorem Faithful.congr (plain : t.base.vaults = s.base.vaults)
    (packed : t.compressed = s.compressed) (saved : t.lastSaved = s.lastSaved) :
    Faithful host xdr t where
  single id := by
    rw [plain, packed]
    exact faithful.single id
  loads id := by
    rw [saved, ← faithful.loads id]
    exact tryLoadVault_congr (congrFun plain id) (congrFun packed id)

theorem Faithful.save (id : VaultId) (vault : Vault) : Faithful host xdr (s.save id vault) where
  single other := by
    by_cases same : other = id
    · subst same
      exact Or.inr (update_self _ _ _)
    · simp only [StoredState.save, update_of_ne same]
      exact faithful.single other
  loads other := by
    by_cases same : other = id
    · subst same
      simp [tryLoadVault, StoredState.save]
    · have untouched : tryLoadVault host xdr (s.save id vault) other =
          tryLoadVault host xdr s other :=
        tryLoadVault_congr (update_of_ne same _ _) (update_of_ne same _ _)
      rw [untouched, faithful.loads other]
      simp [StoredState.save, same]

theorem Faithful.compress {c : CompressedVault} (stored : s.base.vaults id = some vault)
    (decodes : decode host xdr c = .ok vault) : Faithful host xdr (s.compress id c) where
  single other := by
    by_cases same : other = id
    · subst same
      exact Or.inl (update_self _ _ _)
    · simp only [StoredState.compress, update_of_ne same]
      exact faithful.single other
  loads other := by
    by_cases same : other = id
    · subst same
      have saved := faithful.loads other
      simp only [tryLoadVault, stored] at saved
      simp only [tryLoadVault, loadDecompressed, StoredState.compress, update_self, decodes]
      exact saved
    · have untouched : tryLoadVault host xdr (s.compress id c) other =
          tryLoadVault host xdr s other :=
        tryLoadVault_congr (update_of_ne same _ _) (update_of_ne same _ _)
      rw [untouched]
      exact faithful.loads other

theorem Faithful.loadDecompressed
    (loaded : Compression.loadDecompressed host xdr s id = .ok (some vault)) :
    s.lastSaved id = some vault := by
  have absent : s.base.vaults id = none := by
    rcases faithful.single id with absent | unpacked
    · exact absent
    · simp [Compression.loadDecompressed, unpacked] at loaded
  have saved := faithful.loads id
  simp only [tryLoadVault, absent, loaded] at saved
  exact (Except.ok.inj saved).symm

end

/-! ### The run without maintenance -/

/-- `t` is the state of the same run without maintenance. -/
structure Shadows (host : Host) (xdr : VaultXdr) (s t : StoredState) : Prop where
  faithful : Faithful host xdr s
  shadow : Faithful host xdr t
  rest : s.rest = t.rest
  days : s.inactivityDays = t.inactivityDays
  saved : s.lastSaved = t.lastSaved

variable {s t : StoredState}

theorem Shadows.loads (shadows : Shadows host xdr s t) (id : VaultId) :
    tryLoadVault host xdr s id = tryLoadVault host xdr t id := by
  rw [shadows.faithful.loads, shadows.shadow.loads, shadows.saved]

theorem rest_save (s : StoredState) (id : VaultId) (vault : Vault) :
    (s.save id vault).rest = s.rest := rfl

section

variable (shadows : Shadows host xdr s t)
include shadows

theorem Shadows.save (id : VaultId) (vault : Vault) :
    Shadows host xdr (s.save id vault) (t.save id vault) where
  faithful := shadows.faithful.save id vault
  shadow := shadows.shadow.save id vault
  rest := by
    rw [rest_save, rest_save]
    exact shadows.rest
  days := shadows.days
  saved := by
    show update s.lastSaved id _ = update t.lastSaved id _
    rw [shadows.saved]

theorem Shadows.change (update : State → State) :
    Shadows host xdr { s with base := { update s.rest with vaults := s.base.vaults } }
      { t with base := { update t.rest with vaults := t.base.vaults } } where
  faithful := shadows.faithful.congr rfl rfl rfl
  shadow := shadows.shadow.congr rfl rfl rfl
  rest := by
    show ({ update s.rest with vaults := fun _ => none } : State)
      = { update t.rest with vaults := fun _ => none }
    rw [shadows.rest]
  days := shadows.days
  saved := shadows.saved

theorem Shadows.setDays (days : Nat) :
    Shadows host xdr { s with inactivityDays := some days }
      { t with inactivityDays := some days } where
  faithful := shadows.faithful.congr rfl rfl rfl
  shadow := shadows.shadow.congr rfl rfl rfl
  rest := shadows.rest
  days := rfl
  saved := shadows.saved

theorem Shadows.archive (left right : VaultId → Option Vault) :
    Shadows host xdr { s with archivedVault := left } { t with archivedVault := right } where
  faithful := shadows.faithful.congr rfl rfl rfl
  shadow := shadows.shadow.congr rfl rfl rfl
  rest := shadows.rest
  days := shadows.days
  saved := shadows.saved

end

theorem afterRestore_eq (s : StoredState) (id : VaultId) : ∃ archived,
    (if (s.archivedVault id).isSome ∧ (s.base.vaults id).isSome then
      { s with archivedVault := update s.archivedVault id none } else s)
      = { s with archivedVault := archived } := by
  split
  · exact ⟨_, rfl⟩
  · exact ⟨s.archivedVault, rfl⟩

theorem run_simulates (program : Program α) :
    Tx.Simulates (Shadows host xdr) (program.run host xdr) (program.run host xdr) := by
  induction program with
  | done result => exact simulates_pure result
  | fail failure => exact simulates_fail failure
  | load id next ih =>
    refine Tx.Simulates.bind (simulates_consult fun s t shadows => ?_) ih
    exact shadows.loads id
  | save id vault next ih =>
    refine Tx.Simulates.bind (simulates_write fun s t shadows => ?_) fun _ => ih
    exact shadows.save id vault
  | access next ih =>
    exact Tx.Simulates.bind (simulates_read fun s t shadows => shadows.rest) ih
  | change update next ih =>
    refine Tx.Simulates.bind (simulates_write fun s t shadows => ?_) fun _ => ih
    exact shadows.change update
  | getInactivityDays next ih =>
    refine Tx.Simulates.bind (simulates_read fun s t shadows => shadows.days) fun days => ?_
    exact ih _
  | setInactivityDays days next ih =>
    refine Tx.Simulates.bind (simulates_write fun s t shadows => ?_) fun _ => ih
    exact shadows.setDays days
  | archiveVault id vault next ih =>
    refine Tx.Simulates.bind (simulates_write fun s t shadows => ?_) fun _ => ih
    exact shadows.archive _ _
  | tryRestoreArchivedVault id next ih =>
    refine Tx.Simulates.bind (simulates_write fun s t shadows => ?_) fun _ => ih
    obtain ⟨left, leftEq⟩ := afterRestore_eq s id
    obtain ⟨right, rightEq⟩ := afterRestore_eq t id
    rw [leftEq, rightEq]
    exact shadows.archive left right

/-! ### Maintenance leaves no trace -/

section

variable (shadows : Shadows host xdr s t)
include shadows

theorem Shadows.resave (last : s.lastSaved id = some vault) :
    Shadows host xdr (s.save id vault) t where
  faithful := shadows.faithful.save id vault
  shadow := shadows.shadow
  rest := shadows.rest
  days := shadows.days
  saved := by
    show update s.lastSaved id _ = t.lastSaved
    rw [← last, update_eq_self, shadows.saved]

theorem compressVault_shadows (now : Nat) (id : VaultId) :
    (compressVault host xdr now id).wp s fun _ u => Shadows host xdr u t := by
  simp only [compressVault, loadVault, compress, wp_core, wp_consult]
  intro loaded _ found _
  refine ⟨fun _ => shadows, fun _ vault stored => ⟨fun _ => shadows, fun _ => ⟨fun _ => shadows, ?_⟩⟩⟩
  intro _
  exact
    { faithful := shadows.faithful.compress stored (decode_compressedOf _ _ vault)
      shadow := shadows.shadow
      rest := shadows.rest
      days := shadows.days
      saved := shadows.saved }

theorem decompressVault_shadows (id : VaultId) :
    (decompressVault host xdr id).wp s fun _ u => Shadows host xdr u t := by
  simp only [decompressVault, wp_bind, wp_consult]
  intro loaded decoded
  cases loaded with
  | none => exact (wp_pure s _ false).mpr shadows
  | some vault =>
    simp only [saveVault, wp_core]
    exact shadows.resave (shadows.faithful.loadDecompressed decoded)

theorem restoreVault_shadows (env : Env) (id : VaultId) (caller : Address) :
    (restoreVault host xdr env id caller).wp s fun _ u => Shadows host xdr u t := by
  simp only [restoreVault, loadVault, saveVault, wp_core, wp_consult]
  intro _ admin _ loaded found vault same _
  rw [shadows.faithful.loads] at found
  have last : s.lastSaved id = some vault := by
    rw [← same]
    exact Except.ok.inj found
  exact (shadows.resave last).archive _ t.archivedVault

end

theorem perform_maintenance {operation : Operation α}
    (maintenance : operation.isMaintenance = true) (shadows : Shadows host xdr s t) :
    (perform host xdr operation s).1 = [] ∧ Shadows host xdr (perform host xdr operation s).2 t := by
  cases operation with
  | call program => cases maintenance
  | compressVault now id =>
    exact ⟨rfl, (compressVault_shadows shadows now id).after shadows⟩
  | decompressVault id =>
    exact ⟨rfl, (decompressVault_shadows shadows id).after shadows⟩
  | restoreVault env id caller =>
    exact ⟨rfl, (restoreVault_shadows shadows env id caller).after shadows⟩

theorem perform_call (program : Program α) (shadows : Shadows host xdr s t) :
    (perform host xdr (.call program) s).1 = (perform host xdr (.call program) t).1 ∧
      Shadows host xdr (perform host xdr (.call program) s).2
        (perform host xdr (.call program) t).2 := by
  have agree := run_simulates program s t shadows
  show (settle (program.run host xdr s) s).1 = (settle (program.run host xdr t) t).1 ∧
    Shadows host xdr (settle (program.run host xdr s) s).2 (settle (program.run host xdr t) t).2
  cases left : program.run host xdr s with
  | error failure =>
    cases right : program.run host xdr t with
    | error other =>
      rw [left, right] at agree
      have same : failure = other := agree
      rw [same]
      exact ⟨rfl, shadows⟩
    | ok result =>
      rw [left, right] at agree
      exact absurd agree id
  | ok result =>
    cases right : program.run host xdr t with
    | error other =>
      rw [left, right] at agree
      exact absurd agree id
    | ok other =>
      rw [left, right] at agree
      obtain ⟨same, kept⟩ := agree
      refine ⟨?_, kept⟩
      show [Except.ok result.1] = [Except.ok other.1]
      rw [same]

theorem results_cons (operation : Operation α) (later : List (Operation α))
    (s : StoredState) : (performAll host xdr (operation :: later) s).1
      = (perform host xdr operation s).1
        ++ (performAll host xdr later (perform host xdr operation s).2).1 := rfl

/-- **A run and the same run without maintenance**: the results of the calls are the same and the
states stay related. -/
theorem performAll_shadows (operations : List (Operation α)) : ∀ {s t : StoredState},
    Shadows host xdr s t →
    (performAll host xdr operations s).1
        = (performAll host xdr (operations.filter (!·.isMaintenance)) t).1 ∧
      Shadows host xdr (performAll host xdr operations s).2
        (performAll host xdr (operations.filter (!·.isMaintenance)) t).2 := by
  induction operations with
  | nil => exact fun shadows => ⟨rfl, shadows⟩
  | cons operation later ih =>
    intro s t shadows
    cases kind : operation.isMaintenance with
    | true =>
      rw [List.filter_cons_of_neg (by simp [kind])]
      obtain ⟨silent, kept⟩ := perform_maintenance kind shadows
      obtain ⟨results, related⟩ := ih kept
      refine ⟨?_, related⟩
      rw [results_cons, silent, List.nil_append]
      exact results
    | false =>
      rw [List.filter_cons_of_pos (by simp [kind])]
      cases operation with
      | call program =>
        obtain ⟨same, kept⟩ := perform_call program shadows
        obtain ⟨results, related⟩ := ih kept
        refine ⟨?_, related⟩
        rw [results_cons, results_cons, same, results]
      | compressVault now id => cases kind
      | decompressVault id => cases kind
      | restoreVault => cases kind

/-- **Compression is invisible.** After any interleaving of calls and maintenance every vault has at
most one entry, loading it gives what was last saved, and the calls had the results of the same run
without maintenance. -/
theorem compression_invisible {α : Type} (host : Host) (xdr : VaultXdr) (base : State)
    (operations : List (Operation α)) :
    let run := performAll host xdr operations (.plain base)
    let bare := performAll host xdr (operations.filter (!·.isMaintenance)) (.plain base)
    (∀ id, run.2.base.vaults id = none ∨ run.2.compressed id = none) ∧
      (∀ id, tryLoadVault host xdr run.2 id = .ok (run.2.lastSaved id)) ∧
      run.1 = bare.1 ∧
      (∀ id, tryLoadVault host xdr run.2 id = tryLoadVault host xdr bare.2 id) ∧
      run.2.rest = bare.2.rest := by
  have start : Shadows host xdr (.plain base) (.plain base) :=
    ⟨faithful_plain base, faithful_plain base, rfl, rfl, rfl⟩
  obtain ⟨results, related⟩ := performAll_shadows operations start
  exact ⟨related.faithful.single, related.faithful.loads, results, related.loads, related.rest⟩

end EthosContracts.TtlVault.Compression
