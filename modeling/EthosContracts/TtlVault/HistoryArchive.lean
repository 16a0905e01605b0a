/-
**The history of a vault and its archive (`history_archive.rs`).**

The transitions of a vault are appended to a hot log; `archive_history` moves whole pages of old
entries from the front of the log into an archive whose pages are chained by their hashes.

The XDR codec of the entries and the hash function of the host are parameters.
-/

import EthosContracts.TtlVault.Call
import EthosContracts.TtlVault.Xdr

namespace EthosContracts.TtlVault.HistoryArchive

open Lib Function List

/-! ### Storage -/

def archivePageSize : Nat := 25

def archiveMinAgeSeconds : Nat := 2592000

def maxPagesPerCall : Nat := 8

structure StateTransitionEntry where
  fromStatus : ReleaseStatus
  toStatus : ReleaseStatus
  actor : Address
  timestamp : Nat
deriving DecidableEq

structure ArchiveMeta where
  pageCount : Nat
  archivedEntries : Nat
  headHash : Hash
  lastArchivedAt : Nat

structure ArchivePageDigest where
  page : Nat
  entryCount : Nat
  firstTimestamp : Nat
  lastTimestamp : Nat
  prevHash : Hash
  hash : Hash

structure ArchivedHistoryPage where
  vaultId : VaultId
  page : Nat
  entries : List StateTransitionEntry
  prevHash : Hash
  hash : Hash
  archivedAt : Nat

/-- The keys of `ArchiveKey` and the log of transitions; a missing log is empty. -/
structure ArchiveState where
  stateTransitionLog : VaultId → List StateTransitionEntry := fun _ => []
  metas : VaultId → Option ArchiveMeta := fun _ => none
  pages : VaultId → Nat → Option ArchivedHistoryPage := fun _ _ => none
  digests : VaultId → Nat → Option ArchivePageDigest := fun _ _ => none

abbrev ArchiveTx (α : Type) : Type := Tx Failure ArchiveState α

def zeroHash : Hash := List.replicate 32 0

variable (s : ArchiveState) (id : VaultId)

def getMeta : ArchiveMeta :=
  (s.metas id).getD ⟨0, 0, zeroHash, 0⟩

def ArchiveState.savePage (page : Nat) (body : ArchivedHistoryPage) (digest : ArchivePageDigest) :
    ArchiveState :=
  { s with
    pages := update s.pages id (update (s.pages id) page (some body))
    digests := update s.digests id (update (s.digests id) page (some digest)) }

/-- The state with the metadata of an archive and the log that is left. -/
def ArchiveState.saveArchive (archive : ArchiveMeta) (remaining : List StateTransitionEntry) :
    ArchiveState :=
  { s with
    metas := update s.metas id (some archive)
    stateTransitionLog := update s.stateTransitionLog id remaining }

/-! ### Recording and archiving -/

section Functions

variable (host : Host) (xdr : Codec (List StateTransitionEntry))

def toLeBytes (width value : Nat) : Bytes :=
  (List.range width).map fun i => UInt8.ofNat (value / 256 ^ i)

/-- What `page_hash` hashes. -/
def pageBytes (prevHash : Hash) (id : VaultId) (page : Nat)
    (entries : List StateTransitionEntry) : Bytes :=
  prevHash ++ toLeBytes 8 id ++ toLeBytes 4 page ++ xdr.encode entries

def pageHash (prevHash : Hash) (id : VaultId) (page : Nat)
    (entries : List StateTransitionEntry) : Hash :=
  host.sha256 (pageBytes xdr prevHash id page entries)

def recordStateTransition (now : Nat) (id : VaultId) (fromStatus toStatus : ReleaseStatus)
    (actor : Address) : ArchiveTx Unit :=
  write fun s => { s with
    stateTransitionLog := update s.stateTransitionLog id
      (s.stateTransitionLog id ++ [⟨fromStatus, toStatus, actor, now⟩]) }

def archivePage (now : Nat) (id : VaultId) (archive : ArchiveMeta)
    (entries : List StateTransitionEntry) : ArchiveTx ArchiveMeta := do
  let page := archive.pageCount
  let prevHash := archive.headHash
  let hash := pageHash host xdr prevHash id page entries
  write (·.savePage id page ⟨id, page, entries, prevHash, hash, now⟩
    ⟨page, entries.length, (entries.head?.map (·.timestamp)).getD 0,
      (entries.getLast?.map (·.timestamp)).getD 0, prevHash, hash⟩)
  ensure (archive.pageCount + 1 < 2 ^ 32) .overflow
  ensure (archive.archivedEntries + entries.length ≤ maxU64) .overflow
  pure { archive with
    pageCount := archive.pageCount + 1
    archivedEntries := archive.archivedEntries + entries.length
    headHash := hash }

def archivePages (now : Nat) (id : VaultId) :
    List (List StateTransitionEntry) → ArchiveMeta → ArchiveTx ArchiveMeta
  | [], archive => pure archive
  | entries :: later, archive => do
    let next ← archivePage host xdr now id archive entries
    archivePages now id later next

/-- How many entries at the front of a log are old enough. -/
def eligibleEntries (now : Nat) (log : List StateTransitionEntry) : Nat :=
  (log.takeWhile fun entry => entry.timestamp ≤ now - archiveMinAgeSeconds).length

def pagesOf (log : List StateTransitionEntry) (pages : Nat) : List (List StateTransitionEntry) :=
  (List.range pages).map fun p => (log.drop (p * archivePageSize)).take archivePageSize

def archiveHistory (now : Nat) (id : VaultId) : ArchiveTx Nat := do
  let log ← read (·.stateTransitionLog id)
  let pages := min (eligibleEntries now log / archivePageSize) maxPagesPerCall
  if pages = 0 then
    pure 0
  else
    let archive ← read (getMeta · id)
    let archive ← archivePages host xdr now id (pagesOf log pages) archive
    write (·.saveArchive id { archive with lastArchivedAt := now }
      (log.drop (pages * archivePageSize)))
    pure pages

/-! ### Verification -/

def verifyPage (s : ArchiveState) (id : VaultId) (page : Nat)
    (entries : List StateTransitionEntry) : Bool :=
  match s.digests id page with
  | some digest => pageHash host xdr digest.prevHash id page entries = digest.hash
  | none => false

/-- A page body that is still there matches its digest. -/
def bodyMatches (s : ArchiveState) (id : VaultId) (page : Nat) (digest : ArchivePageDigest) :
    Bool :=
  match s.pages id page with
  | some body => body.hash = digest.hash ∧
      pageHash host xdr digest.prevHash id page body.entries = digest.hash
  | none => true

/-- The loop of `verify_integrity`: the hash expected after the pages, unless the chain breaks. -/
def verifyLoop (s : ArchiveState) (id : VaultId) : List Nat → Hash → Option Hash
  | [], expectedPrev => some expectedPrev
  | page :: later, expectedPrev =>
    match s.digests id page with
    | some digest =>
      if digest.prevHash = expectedPrev ∧ bodyMatches host xdr s id page digest then
        verifyLoop s id later digest.hash
      else none
    | none => none

def verifyIntegrity (s : ArchiveState) (id : VaultId) : Bool :=
  verifyLoop host xdr s id (List.range (getMeta s id).pageCount) zeroHash =
    some (getMeta s id).headHash

/-! ### Runs -/

inductive ArchiveCall
  | recordStateTransition (id : VaultId) (fromStatus toStatus : ReleaseStatus) (actor : Address)
  | archiveHistory (id : VaultId)

structure ArchiveInput where
  now : Nat
  call : ArchiveCall

def exec (input : ArchiveInput) : ArchiveTx Unit :=
  match input.call with
  | .recordStateTransition id a b c => recordStateTransition input.now id a b c
  | .archiveHistory id => do
    let _ ← archiveHistory host xdr input.now id
    pure ()

def step (s : ArchiveState) (input : ArchiveInput) (t : ArchiveState) : Prop :=
  exec host xdr input s = .ok ((), t)

abbrev ArchiveRun : List (Event ArchiveState ArchiveInput) → ArchiveState → Prop :=
  Run (step host xdr) {}

end Functions

def ArchiveInput.recorded (input : ArchiveInput) : Option StateTransitionEntry :=
  match input.call with
  | .recordStateTransition other fromStatus toStatus actor =>
    if other = id then some ⟨fromStatus, toStatus, actor, input.now⟩ else none
  | .archiveHistory _ => none

def recorded (history : List (Event ArchiveState ArchiveInput)) (id : VaultId) :
    List StateTransitionEntry :=
  history.filterMap fun event => event.input.recorded id

def ArchiveState.entriesOf (page : Nat) : List StateTransitionEntry :=
  ((s.pages id page).map (·.entries)).getD []

def ArchiveState.archived (pages : Nat) : List StateTransitionEntry :=
  (List.range pages).flatMap (s.entriesOf id)

section Chain

variable (host : Host) (xdr : Codec (List StateTransitionEntry))

/-- The hash of the first pages. -/
def link (s : ArchiveState) (id : VaultId) : Nat → Hash
  | 0 => zeroHash
  | page + 1 => pageHash host xdr (link s id page) id page (s.entriesOf id page)

/-- Every page and every digest is on the chain. -/
structure Linked (s : ArchiveState) (id : VaultId) (archive : ArchiveMeta) : Prop where
  pages : ∀ page < archive.pageCount, ∃ body digest,
    s.pages id page = some body ∧ s.digests id page = some digest ∧
    digest.prevHash = link host xdr s id page ∧
    digest.hash = link host xdr s id (page + 1) ∧ body.hash = digest.hash
  head : archive.headHash = link host xdr s id archive.pageCount

variable {host xdr} {s t : ArchiveState} {id : VaultId} {archive : ArchiveMeta}

variable {n : Nat} {history : List (Event ArchiveState ArchiveInput)}

theorem link_congr (host : Host) (xdr : Codec (List StateTransitionEntry))
    (same : ∀ page < n, t.entriesOf id page = s.entriesOf id page) :
    ∀ page ≤ n, link host xdr t id page = link host xdr s id page := by
  intro page within
  induction page with
  | zero => rfl
  | succ page ih => rw [link, link, ih (by omega), same page (by omega)]

theorem archived_congr (same : ∀ page < n, t.entriesOf id page = s.entriesOf id page) :
    t.archived id n = s.archived id n := by
  unfold ArchiveState.archived
  refine flatMap_congr fun page member => ?_
  exact same page (mem_range.mp member)

theorem archived_succ (s : ArchiveState) (id : VaultId) (n : Nat) :
    s.archived id (n + 1) = s.archived id n ++ s.entriesOf id n := by
  unfold ArchiveState.archived
  rw [range_succ, flatMap_append, flatMap_singleton]

section

variable (linked : Linked host xdr s id archive)
include linked

theorem Linked.congr (pages : t.pages id = s.pages id)
    (digests : t.digests id = s.digests id) :
    Linked host xdr t id archive := by
  have same : ∀ page < archive.pageCount, t.entriesOf id page = s.entriesOf id page := by
    intro page _
    unfold ArchiveState.entriesOf
    rw [pages]
  have links := link_congr host xdr same
  refine ⟨fun page within => ?_, ?_⟩
  · rw [pages, digests, links page within.le, links (page + 1) within]
    exact linked.pages page within
  · rw [links archive.pageCount le_rfl]
    exact linked.head

theorem Linked.stamp {later : ArchiveMeta}
    (count : later.pageCount = archive.pageCount) (head : later.headHash = archive.headHash) :
    Linked host xdr s id later := by
  refine ⟨?_, ?_⟩
  · rw [count]
    exact linked.pages
  · rw [count, head]
    exact linked.head

theorem Linked.verifyLoop (count first : Nat) (whole : first + count = archive.pageCount) :
    verifyLoop host xdr s id (List.range' first count) (link host xdr s id first) =
      some (link host xdr s id archive.pageCount) := by
  induction count generalizing first with
  | zero =>
    rw [Nat.add_zero] at whole
    rw [whole]
    rfl
  | succ count ih =>
    obtain ⟨body, digest, stored, kept, prev, hash, agrees⟩ := linked.pages first (by omega)
    have entries : s.entriesOf id first = body.entries := by
      rw [ArchiveState.entriesOf, stored]
      rfl
    have good : digest.prevHash = link host xdr s id first ∧
        bodyMatches host xdr s id first digest := by
      refine ⟨prev, ?_⟩
      unfold bodyMatches
      rw [stored, decide_eq_true_eq]
      refine ⟨agrees, ?_⟩
      rw [hash, link, prev, entries]
    rw [List.range'_succ, HistoryArchive.verifyLoop, kept]
    show (if _ then _ else _) = _
    rw [if_pos good, hash]
    exact ih (first + 1) (by omega)

/-! ### One page, the pages of a call, the call -/

theorem Linked.savePage (body : ArchivedHistoryPage)
    (digest : ArchivePageDigest) (next : ArchiveMeta)
    (count : next.pageCount = archive.pageCount + 1) (prev : digest.prevHash = archive.headHash)
    (hash : digest.hash = pageHash host xdr archive.headHash id archive.pageCount body.entries)
    (agrees : body.hash = digest.hash) (head : next.headHash = digest.hash) :
    Linked host xdr (s.savePage id archive.pageCount body digest) id next ∧
      (s.savePage id archive.pageCount body digest).archived id next.pageCount =
        s.archived id archive.pageCount ++ body.entries := by
  generalize result : s.savePage id archive.pageCount body digest = t
  have pages : t.pages id = update (s.pages id) archive.pageCount (some body) := by
    rw [← result]
    exact update_self _ _ _
  have digests : t.digests id = update (s.digests id) archive.pageCount (some digest) := by
    rw [← result]
    exact update_self _ _ _
  have same : ∀ page < archive.pageCount, t.entriesOf id page = s.entriesOf id page := by
    intro page within
    unfold ArchiveState.entriesOf
    rw [pages, update_of_ne within.ne]
  have last : t.entriesOf id archive.pageCount = body.entries := by
    unfold ArchiveState.entriesOf
    rw [pages, update_self]
    rfl
  have links := link_congr host xdr same
  have newLink : digest.hash = link host xdr t id (archive.pageCount + 1) := by
    rw [link, links _ le_rfl, last, ← linked.head]
    exact hash
  refine ⟨⟨fun page within => ?_, ?_⟩, ?_⟩
  · rw [count] at within
    rcases Nat.lt_succ_iff_lt_or_eq.mp within with old | rfl
    · rw [pages, digests, update_of_ne old.ne, update_of_ne old.ne,
        links page old.le, links (page + 1) old]
      exact linked.pages page old
    · rw [pages, digests, update_self, update_self, links _ le_rfl]
      exact ⟨body, digest, rfl, rfl, prev.trans linked.head, newLink, agrees⟩
  · rw [count, head]
    exact newLink
  · rw [count, archived_succ, archived_congr same, last]

end

theorem archivePage_wp (now : Nat) (entries : List StateTransitionEntry)
    (linked : Linked host xdr s id archive) :
    (archivePage host xdr now id archive entries).wp s fun next t =>
      Linked host xdr t id next ∧
      t.archived id next.pageCount = s.archived id archive.pageCount ++ entries ∧
      t.stateTransitionLog = s.stateTransitionLog ∧ t.metas = s.metas ∧
      ∀ other, other ≠ id → t.pages other = s.pages other ∧ t.digests other = s.digests other := by
  simp only [archivePage, wp_core]
  intro _ _
  let hash := pageHash host xdr archive.headHash id archive.pageCount entries
  obtain ⟨chain, archived⟩ := linked.savePage
    ⟨id, archive.pageCount, entries, archive.headHash, hash, now⟩
    ⟨archive.pageCount, entries.length, (entries.head?.map (·.timestamp)).getD 0,
      (entries.getLast?.map (·.timestamp)).getD 0, archive.headHash, hash⟩
    ⟨archive.pageCount + 1, archive.archivedEntries + entries.length, hash,
      archive.lastArchivedAt⟩ rfl rfl rfl rfl rfl
  refine ⟨chain, archived, rfl, rfl, fun other ne => ?_⟩
  exact ⟨update_of_ne ne _ _, update_of_ne ne _ _⟩

theorem archivePages_wp (now : Nat) (chunks : List (List StateTransitionEntry))
    (linked : Linked host xdr s id archive) :
    (archivePages host xdr now id chunks archive).wp s fun next t =>
      Linked host xdr t id next ∧
      t.archived id next.pageCount = s.archived id archive.pageCount ++ chunks.flatten ∧
      t.stateTransitionLog = s.stateTransitionLog ∧ t.metas = s.metas ∧
      ∀ other, other ≠ id → t.pages other = s.pages other ∧ t.digests other = s.digests other := by
  induction chunks generalizing s archive with
  | nil =>
    rw [archivePages, wp_pure, flatten_nil, append_nil]
    exact ⟨linked, rfl, rfl, rfl, fun _ _ => ⟨rfl, rfl⟩⟩
  | cons entries later ih =>
    rw [archivePages, wp_bind]
    refine (archivePage_wp now entries linked).mono ?_
    rintro next t ⟨chain, archived, log, metas, frame⟩
    refine (ih chain).mono ?_
    rintro last u ⟨chain', archived', log', metas', frame'⟩
    refine ⟨chain', ?_, log'.trans log, metas'.trans metas, fun other ne => ?_⟩
    · rw [archived', archived, flatten_cons, append_assoc]
    · obtain ⟨pages, digests⟩ := frame other ne
      obtain ⟨pages', digests'⟩ := frame' other ne
      exact ⟨pages'.trans pages, digests'.trans digests⟩

theorem flatten_pagesOf (log : List StateTransitionEntry) (pages : Nat) :
    (pagesOf log pages).flatten = log.take (pages * archivePageSize) := by
  unfold pagesOf
  induction pages with
  | zero =>
    rw [Nat.zero_mul, take_zero]
    rfl
  | succ pages ih =>
    rw [range_succ, map_append, flatten_append, ih, Nat.succ_mul, take_add,
      map_singleton, flatten_singleton]

/-! ### Every vault, in every state -/

/-- The archive and the log of a vault hold what was recorded, on the chain. -/
structure Kept (host : Host) (xdr : Codec (List StateTransitionEntry)) (s : ArchiveState)
    (id : VaultId) (log : List StateTransitionEntry) : Prop where
  linked : Linked host xdr s id (getMeta s id)
  complete : s.archived id (getMeta s id).pageCount ++ s.stateTransitionLog id = log

theorem Kept.congr {log : List StateTransitionEntry} (kept : Kept host xdr s id log)
    (pages : t.pages id = s.pages id) (digests : t.digests id = s.digests id)
    (metas : t.metas id = s.metas id)
    (hot : t.stateTransitionLog id = s.stateTransitionLog id) :
    Kept host xdr t id log := by
  have archive : getMeta t id = getMeta s id := by
    unfold getMeta
    rw [metas]
  refine ⟨?_, ?_⟩
  · rw [archive]
    exact kept.linked.congr pages digests
  · rw [archive, hot, ← kept.complete]
    refine congrArg (· ++ _) (archived_congr fun page _ => ?_)
    unfold ArchiveState.entriesOf
    rw [pages]

theorem archiveHistory_wp (now : Nat) (id : VaultId)
    (logs : VaultId → List StateTransitionEntry)
    (kept : ∀ other, Kept host xdr s other (logs other)) :
    (archiveHistory host xdr now id).wp s fun _ t => ∀ other, Kept host xdr t other (logs other) := by
  simp only [archiveHistory, wp_core]
  refine ⟨fun _ => kept, fun _ => ?_⟩
  generalize min (eligibleEntries now (s.stateTransitionLog id) / archivePageSize)
    maxPagesPerCall = count
  refine (archivePages_wp now _ (kept id).linked).mono ?_
  rintro archive t ⟨chain, archived, log, metas, frame⟩ other
  by_cases same : other = id
  · subst same
    generalize remaining : (s.stateTransitionLog other).drop (count * archivePageSize) = left
    have stored : getMeta (t.saveArchive other { archive with lastArchivedAt := now } left) other =
        { archive with lastArchivedAt := now } := by
      unfold getMeta ArchiveState.saveArchive
      simp only [update_self, Option.getD_some]
    have hot : (t.saveArchive other { archive with lastArchivedAt := now } left).stateTransitionLog
        other = left := update_self _ _ _
    refine ⟨?_, ?_⟩
    · have moved : Linked host xdr (t.saveArchive other { archive with lastArchivedAt := now } left)
          other archive := chain.congr rfl rfl
      rw [stored]
      exact moved.stamp rfl rfl
    · rw [stored, hot]
      show t.archived other archive.pageCount ++ _ = _
      rw [archived, flatten_pagesOf, append_assoc, ← remaining, take_append_drop]
      exact (kept other).complete
  · obtain ⟨pages, digests⟩ := frame other same
    refine (kept other).congr pages digests ?_ ?_
    · exact (update_of_ne same _ _).trans (congrFun metas other)
    · exact (update_of_ne same _ _).trans (congrFun log other)

theorem recorded_append (history : List (Event ArchiveState ArchiveInput))
    (event : Event ArchiveState ArchiveInput) (id : VaultId) :
    recorded (history ++ [event]) id = recorded history id ++ (event.input.recorded id).toList := by
  unfold recorded
  rw [filterMap_append]
  cases found : event.input.recorded id <;> simp [found]

theorem step_kept {input : ArchiveInput}
    (kept : ∀ other, Kept host xdr s other (recorded history other))
    (stepped : step host xdr s input t) :
    ∀ other, Kept host xdr t other (recorded (history ++ [⟨s, input, t⟩]) other) := by
  obtain ⟨now, call⟩ := input
  cases call with
  | recordStateTransition id fromStatus toStatus actor =>
    have hot : t.stateTransitionLog = update s.stateTransitionLog id
        (s.stateTransitionLog id ++ [⟨fromStatus, toStatus, actor, now⟩]) := by
      cases stepped
      rfl
    have rest : t.pages = s.pages ∧ t.digests = s.digests ∧ t.metas = s.metas := by
      cases stepped
      exact ⟨rfl, rfl, rfl⟩
    obtain ⟨pages, digests, metas⟩ := rest
    intro other
    rw [recorded_append]
    by_cases same : id = other
    · subst same
      have entry : ArchiveInput.recorded id
          ⟨now, .recordStateTransition id fromStatus toStatus actor⟩ =
          some ⟨fromStatus, toStatus, actor, now⟩ := if_pos rfl
      have before := (kept id).complete
      refine ⟨?_, ?_⟩
      · unfold getMeta
        rw [metas]
        exact (kept id).linked.congr (congrFun pages id) (congrFun digests id)
      · unfold getMeta ArchiveState.archived ArchiveState.entriesOf at before ⊢
        rw [entry, hot, metas, pages, update_self, ← append_assoc, before]
        rfl
    · have entry : ArchiveInput.recorded other
          ⟨now, .recordStateTransition id fromStatus toStatus actor⟩ = none := if_neg same
      rw [entry, Option.toList_none, append_nil]
      refine (kept other).congr (congrFun pages other) (congrFun digests other)
        (congrFun metas other) ?_
      rw [hot, update_of_ne (Ne.symm same)]
  | archiveHistory id =>
    intro other
    rw [recorded_append]
    show Kept host xdr t other (recorded history other ++ [])
    rw [append_nil]
    have moved := archiveHistory_wp now id (recorded history) kept
    have whole : (exec host xdr ⟨now, .archiveHistory id⟩).wp s fun _ t =>
        ∀ other, Kept host xdr t other (recorded history other) := by
      simp only [exec.eq_def, wp_core]
      exact moved
    exact whole () t stepped other

theorem run_kept
    (run : ArchiveRun host xdr history s) : ∀ id, Kept host xdr s id (recorded history id) := by
  refine run.history_invariant
    (fun history s => ∀ id, Kept host xdr s id (recorded history id)) ?_ ?_
  · intro id
    refine ⟨⟨fun page within => absurd within (Nat.not_lt_zero page), rfl⟩, rfl⟩
  · intro history s input t _ kept stepped
    exact step_kept kept stepped

theorem Linked.verifyPage_false (linked : Linked host xdr s id archive)
    (injective : ∀ prev entries entries' page,
      host.sha256 (pageBytes xdr prev id page entries) =
        host.sha256 (pageBytes xdr prev id page entries') →
      pageBytes xdr prev id page entries = pageBytes xdr prev id page entries')
    {page : Nat} (within : page < archive.pageCount) {entries : List StateTransitionEntry}
    (altered : entries ≠ s.entriesOf id page) :
    verifyPage host xdr s id page entries = false := by
  obtain ⟨-, digest, -, kept, prev, hash, -⟩ := linked.pages page within
  unfold verifyPage
  rw [kept, decide_eq_false_iff_not, hash, link, prev]
  intro collision
  have bytes := injective _ _ _ _ collision
  exact altered (xdr.encode_inj.mp (append_cancel_left bytes))

/-- **Archiving loses no history.** The archived pages in order and then the hot log are what was
recorded about a vault; its archive verifies, and a page with other entries does not, if the hash
does not collide on encodings of pages. -/
theorem archive_lossless {history : List (Event ArchiveState ArchiveInput)}
    (run : ArchiveRun host xdr history s) (id : VaultId) :
    s.archived id (getMeta s id).pageCount ++ s.stateTransitionLog id = recorded history id ∧
      verifyIntegrity host xdr s id = true ∧
      ((∀ prev entries entries' page,
          host.sha256 (pageBytes xdr prev id page entries) =
            host.sha256 (pageBytes xdr prev id page entries') →
          pageBytes xdr prev id page entries = pageBytes xdr prev id page entries') →
        ∀ page < (getMeta s id).pageCount, ∀ entries, entries ≠ s.entriesOf id page →
          verifyPage host xdr s id page entries = false) := by
  obtain ⟨linked, complete⟩ := run_kept run id
  refine ⟨complete, ?_, fun injective page within entries altered => ?_⟩
  · unfold verifyIntegrity
    rw [decide_eq_true_eq, linked.head, range_eq_range']
    exact linked.verifyLoop _ 0 (Nat.zero_add _)
  · exact linked.verifyPage_false injective within altered

end Chain

/-! ### A run -/

def plainEntries : Codec (List StateTransitionEntry) :=
  (((Frame.releaseStatus.pair Frame.releaseStatus).pair (Frame.address.pair Framed.nat)).via
    (fun entry => ((entry.fromStatus, entry.toStatus), entry.actor, entry.timestamp))
    (fun ((fromStatus, toStatus), actor, timestamp) =>
      some ⟨fromStatus, toStatus, actor, timestamp⟩) fun _ => rfl).list.codec

def archiveScenario : List ArchiveInput :=
  ((List.range 30).map fun now =>
    ⟨now, .recordStateTransition 1 .locked .emergencyFrozen ⟨now⟩⟩) ++
  [⟨2592040, .archiveHistory 1⟩]

def archiveReplay : List (Event ArchiveState ArchiveInput) × ArchiveState :=
  play (exec plainHost plainEntries) {} archiveScenario

theorem archiveReplay_run : ArchiveRun plainHost plainEntries archiveReplay.1 archiveReplay.2 :=
  play_run fun _ _ _ _ ran => ran

/-- One page is archived and five entries stay; the page does not verify without its first entry. -/
theorem archive_lossless_scenario :
    (getMeta archiveReplay.2 1).pageCount = 1 ∧
      (archiveReplay.2.stateTransitionLog 1).length = 5 ∧
      archiveReplay.2.archived 1 (getMeta archiveReplay.2 1).pageCount ++
        archiveReplay.2.stateTransitionLog 1 = recorded archiveReplay.1 1 ∧
      verifyIntegrity plainHost plainEntries archiveReplay.2 1 = true ∧
      verifyPage plainHost plainEntries archiveReplay.2 1 0
        (archiveReplay.2.entriesOf 1 0).tail = false := by
  have count : (getMeta archiveReplay.2 1).pageCount = 1 := by decide +kernel
  have page : (archiveReplay.2.entriesOf 1 0).length = 25 := by decide +kernel
  obtain ⟨complete, verified, altered⟩ := archive_lossless archiveReplay_run 1
  refine ⟨count, by decide +kernel, complete, verified, ?_⟩
  refine altered (fun _ _ _ _ same => same) 0 (by rw [count]; decide) _ fun same => ?_
  have lengths := congrArg List.length same
  rw [length_tail, page] at lengths
  cases lengths

end EthosContracts.TtlVault.HistoryArchive
