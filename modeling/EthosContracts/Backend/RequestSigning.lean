/-
**Request signing of the backend** (`request_signing.rs`).

A request comes with a signature of its body, a timestamp and a nonce; the signature is over the
body alone.

The hash functions are parameters (`Hmac`).
-/

import Mathlib.Algebra.Group.Nat.Defs
import Mathlib.Algebra.Ring.Int.Defs
import Mathlib.Data.Finset.Insert
import Mathlib.Data.List.Nodup
import EthosContracts.Lib.Procedure

namespace EthosContracts.Backend.RequestSigning

open Lib Lib.Proc List

/-! ### Signatures -/

inductive SigningAlgorithm
  | sha256
  | sha512
  | ed25519
deriving DecidableEq

structure SignedRequest where
  body : String
  signature : String
  timestamp : String
  nonce : String
  algorithm : Option String
deriving DecidableEq

structure VerificationResult where
  valid : Bool
  reason : Option String
deriving DecidableEq

structure Hmac where
  sha256 : (key message : List UInt8) → List UInt8
  sha512 : (key message : List UInt8) → List UInt8

def asBytes (text : String) : List UInt8 := text.toUTF8.data.toList

/-- `{b:02x}` -/
def hexByte (b : UInt8) : String :=
  String.ofList [Nat.digitChar (b.toNat / 16), Nat.digitChar (b.toNat % 16)]

/-- The signature of a body; `uuid` is the random identifier that stands in for `Ed25519`. -/
def signRequest (hmac : Hmac) (body secret : String) (algorithm : SigningAlgorithm)
    (uuid : String) : String :=
  match algorithm with
  | .sha256 => String.join ((hmac.sha256 (asBytes secret) (asBytes body)).map hexByte)
  | .sha512 => String.join ((hmac.sha512 (asBytes secret) (asBytes body)).map hexByte)
  | .ed25519 => "ed25519_" ++ uuid

def parseAlgorithm (name : Option String) : SigningAlgorithm :=
  match name with
  | some "sha512" => .sha512
  | some "ed25519" => .ed25519
  | _ => .sha256

/-- All bytes are compared, whatever the first ones say. -/
def constantTimeEq (a b : List UInt8) : Bool :=
  if a.length ≠ b.length then false
  else (a.zip b).foldl (fun diff pair => diff ||| (pair.1 ^^^ pair.2)) 0 = 0

/-! ### Timestamps -/

def maxTimestampDriftSecs : Nat := 300

/-- The values of an `i64`. -/
def InI64 (i : Int) : Prop := -2 ^ 63 ≤ i ∧ i < 2 ^ 63

instance (i : Int) : Decidable (InI64 i) := inferInstanceAs (Decidable (_ ∧ _))

/-- `str::parse::<i64>`: an optional sign, then digits. -/
def parseI64 (text : String) : Option Int :=
  let (sign, digits) : Int × List Char :=
    match text.toList with
    | '-' :: rest => (-1, rest)
    | '+' :: rest => (1, rest)
    | chars => (1, chars)
  let value := sign * digits.foldl (fun n c => n * 10 + (c.toNat - '0'.toNat : Nat)) 0
  if digits ≠ [] ∧ digits.all Char.isDigit ∧ InI64 value then some value else none

inductive TimestampFailure
  | reason (text : String)
  /-- The subtraction or the absolute value panics. -/
  | overflow
deriving DecidableEq

def validateTimestamp (now : Int) (timestamp : String) : Except TimestampFailure Unit :=
  match parseI64 timestamp with
  | none => .error (.reason ("invalid timestamp: " ++ timestamp))
  | some ts =>
    if ¬ InI64 (now - ts) ∨ now - ts = -2 ^ 63 then .error .overflow
    else
      let drift := (now - ts).natAbs
      if drift > maxTimestampDriftSecs then
        .error (.reason ("timestamp drift too large: " ++ toString drift ++ "s > " ++
          toString maxTimestampDriftSecs ++ "s"))
      else .ok ()

/-! ### Verification -/

structure SignatureVerifier where
  usedNonces : Finset String

def SignatureVerifier.new : SignatureVerifier := ⟨∅⟩

inductive Panic
  | overflow
deriving DecidableEq

/-- The checks of a request in their order: timestamp, nonce, signature. -/
def verify (hmac : Hmac) (secret : String) (now : Int) (uuid : String) (req : SignedRequest) :
    Proc Panic SignatureVerifier VerificationResult := do
  match validateTimestamp now req.timestamp with
  | .error .overflow => throw .overflow
  | .error (.reason text) => pure ⟨false, some text⟩
  | .ok () =>
    let nonces ← read SignatureVerifier.usedNonces
    if req.nonce ∈ nonces then
      pure ⟨false, some "nonce already used (replay attack detected)"⟩
    else
      let algorithm := parseAlgorithm req.algorithm
      let expectedSig := signRequest hmac req.body secret algorithm uuid
      if constantTimeEq (asBytes req.signature) (asBytes expectedSig) then
        write fun verifier => { verifier with usedNonces := insert req.nonce verifier.usedNonces }
        pure ⟨true, none⟩
      else
        pure ⟨false, some "signature verification failed"⟩

/-! ### What a request has to satisfy -/

/-- The timestamp is a number close to the server's clock. -/
def Timely (now : Int) (req : SignedRequest) : Prop :=
  ∃ ts, parseI64 req.timestamp = some ts ∧ (now - ts).natAbs ≤ maxTimestampDriftSecs

/-- The signature is the one of the body. -/
def ValidSignature (hmac : Hmac) (secret uuid : String) (req : SignedRequest) : Prop :=
  req.signature = signRequest hmac req.body secret (parseAlgorithm req.algorithm) uuid

theorem asBytes_inj {a b : String} : asBytes a = asBytes b ↔ a = b := by
  constructor
  · intro same
    exact String.toByteArray_inj.mp (ByteArray.ext (Array.toList_inj.mp same))
  · exact congrArg asBytes

theorem diff_eq_zero_iff (pairs : List (UInt8 × UInt8)) (diff : UInt8) :
    pairs.foldl (fun diff pair => diff ||| (pair.1 ^^^ pair.2)) diff = 0 ↔
      diff = 0 ∧ ∀ pair ∈ pairs, pair.1 = pair.2 := by
  induction pairs generalizing diff with
  | nil => simp
  | cons pair pairs ih =>
    rw [foldl_cons, ih, UInt8.or_eq_zero_iff, UInt8.xor_eq_zero_iff, forall_mem_cons, and_assoc]

theorem constantTimeEq_iff {a b : List UInt8} : constantTimeEq a b = true ↔ a = b := by
  unfold constantTimeEq
  by_cases long : a.length = b.length
  · rw [if_neg (not_not.mpr long), decide_eq_true_iff, diff_eq_zero_iff, ← forall₂_eq_eq_eq,
      forall₂_iff_zip]
    simp [long]
  · rw [if_pos long]
    constructor
    · intro impossible
      cases impossible
    · intro same
      exact absurd (congrArg List.length same) long

variable {now : Int} {req : SignedRequest}

theorem validateTimestamp_eq_ok_iff :
    validateTimestamp now req.timestamp = .ok () ↔ Timely now req := by
  unfold validateTimestamp Timely
  cases parsed : parseI64 req.timestamp with
  | none => simp
  | some ts =>
    simp only [Option.some.injEq, exists_eq_left']
    have near : (now - ts).natAbs ≤ maxTimestampDriftSecs →
        ¬ (¬ InI64 (now - ts) ∨ now - ts = -2 ^ 63) := by
      unfold maxTimestampDriftSecs InI64
      omega
    split
    · rename_i wide
      simpa using fun close => near close wide
    · split
      · rename_i far
        simpa using far
      · rename_i close
        simpa using close

section Verify

variable {hmac : Hmac} {secret uuid : String} {now : Int} {req : SignedRequest}
  {verifier after : SignatureVerifier}

theorem verify_eq_ok_iff : verify hmac secret now uuid req verifier = .ok ⟨true, none⟩ after ↔
      (Timely now req ∧ req.nonce ∉ verifier.usedNonces ∧ ValidSignature hmac secret uuid req) ∧
        after = { verifier with usedNonces := insert req.nonce verifier.usedNonces } := by
  unfold verify
  cases checked : validateTimestamp now req.timestamp with
  | error failure =>
    have late : ¬ Timely now req := fun timely => by
      rw [validateTimestamp_eq_ok_iff.mpr timely] at checked
      cases checked
    cases failure with
    | overflow =>
      refine iff_of_false ?_ fun accepted => late accepted.1.1
      rintro ⟨⟩
    | reason text => simp [late, pure_eq_ok_iff]
  | ok =>
    have timely := validateTimestamp_eq_ok_iff.mp checked
    have same : constantTimeEq (asBytes req.signature) (asBytes (signRequest hmac req.body secret
        (parseAlgorithm req.algorithm) uuid)) = true ↔ ValidSignature hmac secret uuid req := by
      rw [constantTimeEq_iff, asBytes_inj]
      rfl
    simp only [bind_eq_ok_iff, read_eq_ok_iff, ite_eq_ok_iff, pure_eq_ok_iff, write_eq_ok_iff, same]
    simp [timely, and_assoc]

theorem verify_ends : (verify hmac secret now uuid req).ends verifier
    (fun result t => result = ⟨true, none⟩ ∨ t = verifier) fun _ t => t = verifier := by
  unfold verify
  cases validateTimestamp now req.timestamp with
  | error failure =>
    cases failure with
    | overflow => exact (ends_of_error rfl).mpr rfl
    | reason text => simp
  | ok =>
    simp only [ends_bind, ends_read, ends_ite, ends_write, ends_pure]
    simp

theorem verify_after_of_rejected
    (rejected : (verify hmac secret now uuid req).result verifier ≠ .ok ⟨true, none⟩) :
    (verify hmac secret now uuid req).after verifier = verifier := by
  unfold Proc.result at rejected
  unfold Proc.after
  cases outcome : verify hmac secret now uuid req verifier with
  | ok result t =>
    rw [outcome] at rejected
    refine (verify_ends.1 result t outcome).resolve_left fun accepted => rejected ?_
    rw [accepted]
  | error failure t => exact verify_ends.2 failure t outcome

end Verify

/-! ### Sequences of requests -/

structure Signing where
  body : String
  timestamp : Int
  nonce : String
deriving DecidableEq

inductive Input
  | sign (signing : Signing)
  | send (now : Int) (uuid : String) (req : SignedRequest)

structure Session where
  verifier : SignatureVerifier
  accepted : List SignedRequest

/-- The verifier accepts the request. -/
def Accepts (hmac : Hmac) (secret : String) (verifier : SignatureVerifier) (now : Int)
    (uuid : String) (req : SignedRequest) : Prop :=
  (verify hmac secret now uuid req).result verifier = .ok ⟨true, none⟩

instance (hmac : Hmac) (secret : String) (verifier : SignatureVerifier) (now : Int) (uuid : String)
    (req : SignedRequest) : Decidable (Accepts hmac secret verifier now uuid req) :=
  inferInstanceAs (Decidable (_ = _))

def Session.next (hmac : Hmac) (secret : String) (session : Session) : Input → Session
  | .sign _ => session
  | .send now uuid req =>
    ⟨(verify hmac secret now uuid req).after session.verifier,
      if Accepts hmac secret session.verifier now uuid req then session.accepted ++ [req]
      else session.accepted⟩

/-- **A sequence of signings and requests**, all with one secret. -/
def history (hmac : Hmac) (secret : String) (inputs : List Input) : Session :=
  inputs.foldl (Session.next hmac secret) ⟨.new, []⟩

def Input.signing? : Input → Option Signing
  | .sign signing => some signing
  | .send _ _ _ => none

def signings (inputs : List Input) : List Signing := inputs.filterMap Input.signing?

/-- The request carries what was signed. -/
structure Signing.Agrees (signing : Signing) (req : SignedRequest) : Prop where
  body : signing.body = req.body
  timestamp : parseI64 req.timestamp = some signing.timestamp
  nonce : signing.nonce = req.nonce

/-- **Unforgeability**: whoever sends a valid signature of a body has it from the key holder. -/
def Unforgeable (hmac : Hmac) (secret : String) (inputs : List Input) : Prop :=
  ∀ before now uuid req after, inputs = before ++ .send now uuid req :: after →
    ValidSignature hmac secret uuid req → ∃ signing ∈ signings before, signing.body = req.body

/-- Every accepted request agrees with one that was signed before. -/
def Genuine (hmac : Hmac) (secret : String) (inputs : List Input) : Prop :=
  ∀ before now uuid req after, inputs = before ++ .send now uuid req :: after →
    Accepts hmac secret (history hmac secret before).verifier now uuid req →
      ∃ signing ∈ signings before, signing.Agrees req

/-- **A signed request is accepted once**: what is accepted agrees with a request signed before, and
a body is accepted at most as often as it was signed. -/
structure SignedOnce (hmac : Hmac) (secret : String) (inputs : List Input) : Prop where
  genuine : Genuine hmac secret inputs
  once : ∀ body, ((history hmac secret inputs).accepted.filter (·.body = body)).length ≤
    ((signings inputs).filter (·.body = body)).length

/-- **A request in which a signed body is sent under other data**: the body was signed, but never
with this timestamp and nonce. -/
def Altered (before : List Input) (req : SignedRequest) : Prop :=
  (∃ signing ∈ signings before, signing.body = req.body) ∧
    ∀ signing ∈ signings before, ¬ signing.Agrees req

section Sequences

variable {hmac : Hmac} {secret : String} {inputs : List Input}

theorem history_concat (input : Input) :
    history hmac secret (inputs ++ [input]) = (history hmac secret inputs).next hmac secret input := by
  rw [history, foldl_append]
  rfl

variable {session : Session} {now : Int} {uuid : String} {req : SignedRequest}

theorem next_of_accepts (accepts : Accepts hmac secret session.verifier now uuid req) :
    session.next hmac secret (.send now uuid req) =
      ⟨{ session.verifier with usedNonces := insert req.nonce session.verifier.usedNonces },
        session.accepted ++ [req]⟩ := by
  obtain ⟨t, ran⟩ := result_eq_ok_iff.mp accepts
  simp only [Session.next, if_pos accepts, after_of_ok ran, (verify_eq_ok_iff.mp ran).2]

theorem next_of_rejected (rejected : ¬ Accepts hmac secret session.verifier now uuid req) :
    session.next hmac secret (.send now uuid req) = session := by
  simp only [Session.next, if_neg rejected, verify_after_of_rejected rejected]

/-- The verifier knows the nonces of the accepted requests, which are all different. -/
structure Session.Sound (session : Session) : Prop where
  used : ∀ nonce, nonce ∈ session.verifier.usedNonces ↔ nonce ∈ session.accepted.map (·.nonce)
  different : (session.accepted.map (·.nonce)).Nodup

theorem Session.Sound.next (sound : session.Sound) (input : Input) :
    (session.next hmac secret input).Sound := by
  cases input with
  | sign signing => exact sound
  | send now uuid req =>
    by_cases accepts : Accepts hmac secret session.verifier now uuid req
    · obtain ⟨t, ran⟩ := result_eq_ok_iff.mp accepts
      have unused := (verify_eq_ok_iff.mp ran).1.2.1
      rw [sound.used] at unused
      rw [next_of_accepts accepts]
      refine ⟨fun nonce => ?_, ?_⟩
      · rw [map_append, mem_append, Finset.mem_insert, sound.used, or_comm]
        simp
      · rw [map_append, nodup_append]
        refine ⟨sound.different, nodup_singleton _, ?_⟩
        intro old member new here same
        rw [map_singleton, mem_singleton] at here
        rw [same, here] at member
        exact unused member
    · rw [next_of_rejected accepts]
      exact sound

theorem history_sound (hmac : Hmac) (secret : String) (inputs : List Input) :
    (history hmac secret inputs).Sound := by
  induction inputs using List.reverseRecOn with
  | nil => exact ⟨fun nonce => by simp [history, SignatureVerifier.new], nodup_nil⟩
  | append_singleton inputs input ih =>
    rw [history_concat]
    exact ih.next input

theorem accepts_iff :
    Accepts hmac secret (history hmac secret inputs).verifier now uuid req ↔
      Timely now req ∧ (∀ old ∈ (history hmac secret inputs).accepted, old.nonce ≠ req.nonce) ∧
        ValidSignature hmac secret uuid req := by
  have unused : req.nonce ∉ (history hmac secret inputs).verifier.usedNonces ↔
      ∀ old ∈ (history hmac secret inputs).accepted, old.nonce ≠ req.nonce := by
    rw [(history_sound hmac secret inputs).used]
    simp
  rw [Accepts, result_eq_ok_iff, ← unused]
  simp only [verify_eq_ok_iff]
  exact ⟨fun ran => ran.elim fun _ ended => ended.1, fun ready => ⟨_, ready, rfl⟩⟩

variable (genuine : Genuine hmac secret inputs)
include genuine

theorem accepted_signed :
    ∀ req ∈ (history hmac secret inputs).accepted, ∃ signing ∈ signings inputs, signing.Agrees req := by
  induction inputs using List.reverseRecOn with
  | nil => simp [history]
  | append_singleton inputs input ih =>
    have earlier : Genuine hmac secret inputs := by
      intro before now uuid req after whole
      refine genuine before now uuid req (after ++ [input]) ?_
      rw [whole, append_assoc, cons_append]
    have more : ∀ signing ∈ signings inputs, signing ∈ signings (inputs ++ [input]) := by
      intro signing member
      rw [signings, filterMap_append]
      exact mem_append_left _ member
    have old : ∀ req ∈ (history hmac secret inputs).accepted,
        ∃ signing ∈ signings (inputs ++ [input]), signing.Agrees req := by
      intro req member
      obtain ⟨signing, signed, agrees⟩ := ih earlier req member
      exact ⟨signing, more signing signed, agrees⟩
    rw [history_concat]
    cases input with
    | sign signing => exact old
    | send now uuid req =>
      by_cases accepts : Accepts hmac secret (history hmac secret inputs).verifier now uuid req
      · rw [next_of_accepts accepts, forall_mem_append]
        refine ⟨old, ?_⟩
        rw [forall_mem_singleton]
        obtain ⟨signing, signed, agrees⟩ := genuine inputs now uuid req [] rfl accepts
        exact ⟨signing, more signing signed, agrees⟩
      · rw [next_of_rejected accepts]
        exact old

theorem once_of_genuine (body : String) :
    ((history hmac secret inputs).accepted.filter (·.body = body)).length ≤
      ((signings inputs).filter (·.body = body)).length := by
  have different : (((history hmac secret inputs).accepted.filter (·.body = body)).map
      (·.nonce)).Nodup :=
    (history_sound hmac secret inputs).different.sublist (filter_sublist.map _)
  have covered : ((history hmac secret inputs).accepted.filter (·.body = body)).map (·.nonce) ⊆
      ((signings inputs).filter (·.body = body)).map (·.nonce) := by
    intro nonce member
    obtain ⟨req, listed, rfl⟩ := mem_map.mp member
    obtain ⟨accepted, same⟩ := mem_filter.mp listed
    obtain ⟨signing, signed, agrees⟩ := accepted_signed genuine req accepted
    rw [← agrees.nonce]
    refine mem_map_of_mem (mem_filter.mpr ⟨signed, ?_⟩)
    rw [agrees.body]
    exact same
  have count := (subperm_of_subset different covered).length_le
  rw [length_map, length_map] at count
  exact count

end Sequences

/-- **A signed request is accepted once exactly if no altered request slips through**: none is sent
that is in time, carries the signature of its body and has a nonce that no accepted request had. -/
theorem signedOnce_iff {hmac : Hmac} {secret : String} {inputs : List Input}
    (unforgeable : Unforgeable hmac secret inputs) :
    SignedOnce hmac secret inputs ↔
      ∀ before now uuid req after, inputs = before ++ .send now uuid req :: after →
        Altered before req → ¬ (Timely now req ∧
          (∀ old ∈ (history hmac secret before).accepted, old.nonce ≠ req.nonce) ∧
          ValidSignature hmac secret uuid req) := by
  constructor
  · intro once before now uuid req after whole altered slips
    obtain ⟨signing, signed, agrees⟩ :=
      once.genuine before now uuid req after whole (accepts_iff.mpr slips)
    exact altered.2 signing signed agrees
  · intro unaltered
    have genuine : Genuine hmac secret inputs := by
      intro before now uuid req after whole accepts
      have slips := accepts_iff.mp accepts
      by_contra none
      have others : ∀ signing ∈ signings before, ¬ signing.Agrees req :=
        fun signing signed agrees => none ⟨signing, signed, agrees⟩
      exact unaltered before now uuid req after whole
        ⟨unforgeable before now uuid req after whole slips.2.2, others⟩ slips
    exact ⟨genuine, once_of_genuine genuine⟩

/-! ### A signature that is sent again -/

def plainHmac : Hmac := ⟨fun _ message => message, fun _ message => message⟩

def payment : Signing := ⟨"pay", 1000, "n1"⟩

def sendPayment (now : Int) (nonce : String) : Input :=
  .send now "" ⟨"pay", "706179", "1000", nonce, some "sha256"⟩

variable {rest : List Input}

theorem signed_first {signing : Signing} {before after : List Input} {uuid : String}
    (whole : .sign signing :: rest = before ++ .send now uuid req :: after) :
    signing ∈ signings before ∧ .send now uuid req ∈ rest := by
  cases before with
  | nil => cases (cons_eq_cons.mp whole).1
  | cons =>
    obtain ⟨rfl, same⟩ := cons_eq_cons.mp whole
    refine ⟨mem_cons_self, ?_⟩
    rw [same]
    exact mem_append_cons_self

theorem payments_unforgeable
    (payments : ∀ input ∈ rest, ∃ now nonce, input = sendPayment now nonce) :
    Unforgeable plainHmac "secret" (.sign payment :: rest) := by
  intro before now uuid req after whole _
  obtain ⟨signed, member⟩ := signed_first whole
  obtain ⟨_, _, same⟩ := payments _ member
  obtain ⟨-, -, rfl⟩ := Input.send.inj same
  exact ⟨payment, signed, rfl⟩

/-- The payment is accepted once, however often it is sent with its own nonce. -/
theorem signedOnce_sentAgain : SignedOnce plainHmac "secret"
    [.sign payment, sendPayment 1000 "n1", sendPayment 1001 "n1"] := by
  refine (signedOnce_iff (payments_unforgeable ?_)).mpr ?_
  · simp [sendPayment]
  · intro before now uuid req after whole altered
    obtain ⟨signed, member⟩ := signed_first whole
    have agrees : payment.Agrees ⟨"pay", "706179", "1000", "n1", some "sha256"⟩ :=
      ⟨rfl, by decide +kernel, rfl⟩
    have same : req = ⟨"pay", "706179", "1000", "n1", some "sha256"⟩ := by
      rcases mem_cons.mp member with first | member
      · exact (Input.send.inj first).2.2
      · exact (Input.send.inj (mem_singleton.mp member)).2.2
    exact absurd (same ▸ agrees) (altered.2 payment signed)

/-- **The payment is accepted again with another nonce.** -/
theorem accepted_twice :
    Unforgeable plainHmac "secret" [.sign payment, sendPayment 1000 "n1", sendPayment 1001 "n2"] ∧
      ¬ SignedOnce plainHmac "secret"
        [.sign payment, sendPayment 1000 "n1", sendPayment 1001 "n2"] := by
  refine ⟨payments_unforgeable ?_, fun signed => ?_⟩
  · simp [sendPayment]
  · have count := signed.once "pay"
    revert count
    decide +kernel

/-! ### Nonces -/

theorem accepted_foldl_next {hmac : Hmac} {secret : String} (inputs : List Input) (session : Session) :
    session.accepted <+: (inputs.foldl (Session.next hmac secret) session).accepted := by
  induction inputs generalizing session with
  | nil => exact prefix_rfl
  | cons input rest ih =>
    refine IsPrefix.trans ?_ (ih _)
    cases input with
    | sign signing => exact prefix_rfl
    | send now uuid req =>
      by_cases accepts : Accepts hmac secret session.verifier now uuid req
      · rw [next_of_accepts accepts]
        exact prefix_append _ _
      · rw [next_of_rejected accepts]

/-- **A nonce that was accepted is used up**, whatever is signed and sent in between. -/
theorem accepted_nonce_used_up {hmac : Hmac} {secret : String} {before between : List Input}
    {now now' : Int} {uuid uuid' : String} {req req' : SignedRequest}
    (accepts : Accepts hmac secret (history hmac secret before).verifier now uuid req)
    (same : req.nonce = req'.nonce) :
    ¬ Accepts hmac secret (history hmac secret (before ++ .send now uuid req :: between)).verifier
      now' uuid' req' := by
  intro again
  refine (accepts_iff.mp again).2.1 req ?_ same
  rw [history, foldl_append, foldl_cons]
  refine (accepted_foldl_next between _).subset ?_
  show req ∈ (Session.next hmac secret (history hmac secret before) (.send now uuid req)).accepted
  rw [next_of_accepts accepts]
  exact mem_append_right _ mem_cons_self

theorem accepted_nonce_used_up_payment :
    let req : SignedRequest := ⟨"pay", "706179", "1000", "n1", some "sha256"⟩
    ¬ Accepts plainHmac "secret" (history plainHmac "secret" ([] ++ [.send 1000 "" req])).verifier
      1001 "" req :=
  accepted_nonce_used_up (by decide +kernel) rfl

end EthosContracts.Backend.RequestSigning
