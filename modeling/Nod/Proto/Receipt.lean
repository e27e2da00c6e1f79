import Nod.Proto.ValueSigning

/-
  Offline verification of a decision receipt against pinned device keys
  (`nod-proto/src/receipt.rs`). The checks come in the order of the source: signature presence
  and algorithm, request id, recomputed digest, option, actor and pinned key, canonical payload,
  P-256, then `signed_at`. Durations are nanoseconds.
-/

namespace Nod.Proto

open Lib

/-- A device key the caller trusts. -/
structure PinnedKey where
  userId : String
  deviceId : Option String
  keyId : String
  publicKey : String
  deriving DecidableEq

/-- Which encoder a receipt was found to bind: version tags do not tell encoders apart. -/
inductive DigestEncoder where
  | structured
  | value
  | legacyLineSnapshot
  | legacyStructured
  | legacyValue
  deriving DecidableEq

inductive ReceiptError where
  | missingSignature
  | unsupportedAlgorithm (algorithm : String)
  | unsupportedPayloadVersion (version : String)
  | unsupportedDigestVersion (version : String)
  | missingSigningContext
  | requestIdMismatch (request decision : String)
  | requestDigestMismatch (expected : List String) (found : String)
  | missingActor
  | unknownKey (userId keyId : String)
  | deviceMismatch (keyId pinned found : String)
  | missingAnswerValue
  | unexpectedAnswerValue
  | signingPayloadMismatch
  | signatureInvalid (error : SigningError)
  | unknownOption (optionId : String)
  | optionKindMismatch (optionId : String) (expected found : OptionKind)
  | invalidSignedAt (text : String)
  | clockSkew (signedAt now : DateTime) (skew tolerance : Int)
  | digest (error : SigningError)
  | payload (error : SigningError)
  deriving DecidableEq

/-- Observations that do not fail a receipt. -/
inductive ReceiptWarning where
  | clockSkew (signedAt now : DateTime) (skew tolerance : Int)
  | resolvedAtSkew (resolvedAt signedAt : DateTime) (skew : Int)
  deriving DecidableEq

structure ReceiptVerificationInput where
  request : Request
  decision : Decision
  pinnedKeys : List PinnedKey
  now : DateTime
  maxClockSkew : Option Int
  strictTime : Bool

structure VerifiedReceipt where
  requestId : String
  userId : String
  deviceId : String
  keyId : String
  optionId : String
  optionKind : OptionKind
  requestDigest : String
  digestEncoder : DigestEncoder
  signedAt : DateTime
  warnings : List ReceiptWarning
  deriving DecidableEq

/-- Ten minutes. -/
def defaultMaxClockSkew : Int := 600000000000

/-! ## Digest and option -/

def knownVersions : List String :=
  [requestDigestVersion, valueRequestDigestVersion, legacyLineSnapshotRequestDigestVersion,
    legacyStructuredRequestDigestVersion, legacyValueRequestDigestVersion]

/-- Every digest the created request can have been signed under. A value card needs the commitment
    of its signing context; an ordinary card always has its line snapshot. -/
def receiptCandidates (E : Externals) (request : Request) :
    Except ReceiptError (List (String × DigestEncoder)) :=
  let commitment := request.signing.map RequestSigningContext.recipientsCommitment
  match request.answerField with
  | some field => do
    let commitment ← orElse .missingSigningContext commitment
    let current ← (valueRequestDigest E request commitment field).mapError .digest
    let legacy ← (valueRequestDigestLegacyV3 E request commitment field).mapError .digest
    pure [(current, .value), (legacy, .legacyValue)]
  | none =>
    match commitment with
    | some commitment => do
      let current ← (requestDigestV1 E request commitment).mapError .digest
      let legacy ← (requestDigestLegacyStructuredV2 E request commitment).mapError .digest
      pure [(current, .structured), (legacy, .legacyStructured),
        (requestDigestLegacyLineSnapshot E request, .legacyLineSnapshot)]
    | none => pure [(requestDigestLegacyLineSnapshot E request, .legacyLineSnapshot)]

def checkVersion (request : Request) : Except ReceiptError Unit :=
  match request.signing with
  | some signing =>
    refuseIf (signing.version ∉ knownVersions) (.unsupportedDigestVersion signing.version)
  | none => .ok ()

def matchRequestDigest (E : Externals) (request : Request) (found : String) :
    Except ReceiptError (String × DigestEncoder) := do
  checkVersion request
  let candidates ← receiptCandidates E request
  orElse (.requestDigestMismatch (candidates.map Prod.fst) found)
    (candidates.find? fun candidate => candidate.1 = found)

/-- The option a decision names, or the implicit dismiss of an optionless ordinary request. -/
def resolveOption (request : Request) (optionId : String) : Except ReceiptError RequestOption :=
  match request.options.find? (fun option => option.id = optionId) with
  | some option => .ok option
  | none =>
    if request.options = [] ∧ request.answerField = none ∧ optionId = "dismiss" then
      .ok
        { id := "dismiss", label := "Dismiss", kind := .dismiss, style := "default"
          requiresText := false, textPlaceholder := none, destructive := false
          foreground := false }
    else .error (.unknownOption optionId)

/-! ## Payload -/

/-- The payload the receipt's own fields stand for. -/
def rebuildPayload (E : Externals) (request : Request) (decision : Decision)
    (signature : DecisionSignatureRecord) (input : DecisionSigningInput) :
    Except ReceiptError String :=
  match signature.payloadVersion with
  | none => do
    refuseIf (decision.answerValue ≠ none ∨ request.answerField ≠ none) .unexpectedAnswerValue
    pure (decisionSigningPayload E input)
  | some version =>
    if version = valueDecisionPayloadVersion then do
      let answer ← orElse .missingAnswerValue decision.answerValue
      (decisionSigningPayloadV2 input answer).mapError .payload
    else .error (.unsupportedPayloadVersion version)

def checkDevice (pinned : PinnedKey) (keyId deviceId : String) : Except ReceiptError Unit :=
  match pinned.deviceId with
  | some pinnedDevice =>
    refuseIf (pinnedDevice ≠ deviceId) (.deviceMismatch keyId pinnedDevice deviceId)
  | none => .ok ()

def actorOf (decision : Decision) : Except ReceiptError (String × String) :=
  match decision.actorUserId, decision.actorDeviceId with
  | some userId, some deviceId => .ok (userId, deviceId)
  | _, _ => .error .missingActor

/-! ## Time -/

/-- A signing time outside the tolerance is a warning, and an error under the strict policy. -/
def timeWarnings (input : ReceiptVerificationInput) (signedAt : DateTime) :
    Except ReceiptError (List ReceiptWarning) := do
  let tolerance := input.maxClockSkew.getD defaultMaxClockSkew
  let skew : Int := (input.now.signedDurationSince signedAt).natAbs
  refuseIf (tolerance < skew ∧ input.strictTime = true)
    (.clockSkew signedAt input.now skew tolerance)
  let resolvedSkew : Int := (input.decision.resolvedAt.signedDurationSince signedAt).natAbs
  pure
    ((if tolerance < skew then [.clockSkew signedAt input.now skew tolerance] else []) ++
      (if tolerance < resolvedSkew then
        [.resolvedAtSkew input.decision.resolvedAt signedAt resolvedSkew] else []))

/-! ## The verdict -/

def verifyDecisionReceipt (E : Externals) (input : ReceiptVerificationInput) :
    Except ReceiptError VerifiedReceipt := do
  let request := input.request
  let decision := input.decision
  let signature ← orElse .missingSignature decision.signature
  refuseIf (signature.algorithm ≠ decisionSigningAlgorithm)
    (.unsupportedAlgorithm signature.algorithm)
  refuseIf (decision.requestId ≠ request.id ∨
      (request.requestId ≠ "" ∧ request.requestId ≠ request.id))
    (.requestIdMismatch request.id decision.requestId)
  let (requestDigest, digestEncoder) ← matchRequestDigest E request signature.requestDigest
  let option ← resolveOption request decision.optionId
  refuseIf (option.kind ≠ decision.optionKind)
    (.optionKindMismatch decision.optionId option.kind decision.optionKind)
  let (userId, deviceId) ← actorOf decision
  let pinned ← orElse (.unknownKey userId signature.keyId)
    (input.pinnedKeys.find? fun key => key.userId = userId ∧ key.keyId = signature.keyId)
  checkDevice pinned signature.keyId deviceId
  let signedAt ← orElse (.invalidSignedAt signature.signedAt)
    (DateTime.parseFromRfc3339 signature.signedAt)
  let rebuilt ← rebuildPayload E request decision signature
    { requestId := decision.requestId, requestDigest, optionId := decision.optionId
      optionKind := decision.optionKind, userId, deviceId, keyId := signature.keyId
      nonce := signature.nonce, signedAt := signedAt.toRfc3339Millis, text := decision.text }
  refuseIf (rebuilt ≠ signature.signingPayload) .signingPayloadMismatch
  (verifyPayload E pinned.publicKey rebuilt signature.signature).mapError .signatureInvalid
  let warnings ← timeWarnings input signedAt
  pure
    { requestId := decision.requestId, userId, deviceId, keyId := signature.keyId
      optionId := decision.optionId, optionKind := decision.optionKind, requestDigest
      digestEncoder, signedAt, warnings }

/-! ## What a pass means -/

/-- Everything a passing receipt has been checked for. -/
structure Verified (E : Externals) (input : ReceiptVerificationInput)
    (s : DecisionSignatureRecord) (u d : String) (pin : PinnedKey) (t : DateTime)
    (dg : String × DigestEncoder) (p : String) : Prop where
  signature : input.decision.signature = some s
  algorithm : s.algorithm = decisionSigningAlgorithm
  requestId : input.decision.requestId = input.request.id
  requestIdCopy : input.request.requestId = "" ∨ input.request.requestId = input.request.id
  digest : matchRequestDigest E input.request s.requestDigest = .ok dg
  option : ∃ o, resolveOption input.request input.decision.optionId = .ok o ∧
    o.kind = input.decision.optionKind
  userId : input.decision.actorUserId = some u
  deviceId : input.decision.actorDeviceId = some d
  pinned : input.pinnedKeys.find? (fun key => key.userId = u ∧ key.keyId = s.keyId) = some pin
  device : pin.deviceId = none ∨ pin.deviceId = some d
  signedAt : DateTime.parseFromRfc3339 s.signedAt = some t
  payload : rebuildPayload E input.request input.decision s
    { requestId := input.decision.requestId, requestDigest := dg.1
      optionId := input.decision.optionId, optionKind := input.decision.optionKind
      userId := u, deviceId := d, keyId := s.keyId, nonce := s.nonce
      signedAt := t.toRfc3339Millis, text := input.decision.text } = .ok p
  recorded : p = s.signingPayload
  verifies : verifyPayload E pin.publicKey p s.signature = .ok ()

theorem checkDevice_eq_ok {pinned : PinnedKey} {keyId deviceId : String} :
    checkDevice pinned keyId deviceId = .ok () ↔
      pinned.deviceId = none ∨ pinned.deviceId = some deviceId := by
  unfold checkDevice
  cases pinned.deviceId <;> simp

theorem actorOf_eq_ok {decision : Decision} {a : String × String} :
    actorOf decision = .ok a ↔
      decision.actorUserId = some a.1 ∧ decision.actorDeviceId = some a.2 := by
  unfold actorOf
  obtain ⟨u, d⟩ := a
  cases decision.actorUserId <;> cases decision.actorDeviceId <;> simp

/-- A receipt passes when all its checks do, and its warnings stay warnings. -/
theorem verifyDecisionReceipt_eq_ok {E : Externals} {input : ReceiptVerificationInput}
    {r : VerifiedReceipt} :
    verifyDecisionReceipt E input = .ok r ↔
      ∃ s u d pin t dg p ws, Verified E input s u d pin t dg p ∧ timeWarnings input t = .ok ws ∧
        { requestId := input.decision.requestId, userId := u, deviceId := d, keyId := s.keyId
          optionId := input.decision.optionId, optionKind := input.decision.optionKind
          requestDigest := dg.1, digestEncoder := dg.2, signedAt := t, warnings := ws } = r := by
  simp only [verifyDecisionReceipt, bind_eq_ok, orElse_eq_ok, refuseIf_eq_ok, mapError_eq_ok,
    pure_eq_ok]
  constructor
  · rintro ⟨s, hs, _, halg, _, hid, dg, hd, o, ho, _, hkind, ⟨u, d⟩, hact, pin, hp, _, hdev,
      t, ht, p, hpay, _, hrec, _, hver, ws, hw, rfl⟩
    obtain ⟨hu, hdv⟩ := actorOf_eq_ok.mp hact
    rw [not_or, not_and, not_not, not_not] at hid
    exact ⟨s, u, d, pin, t, dg, p, ws, ⟨hs, not_not.mp halg, hid.1,
      Classical.or_iff_not_imp_left.mpr hid.2, hd, ⟨o, ho, not_not.mp hkind⟩, hu, hdv, hp,
      checkDevice_eq_ok.mp hdev, ht, hpay, not_not.mp hrec, hver⟩, hw, rfl⟩
  · rintro ⟨s, u, d, pin, t, dg, p, ws, h, hw, rfl⟩
    obtain ⟨o, ho, hkind⟩ := h.option
    refine ⟨s, h.signature, (), not_not.mpr h.algorithm, (), ?_, dg, h.digest, o, ho, (),
      not_not.mpr hkind, (u, d), actorOf_eq_ok.mpr ⟨h.userId, h.deviceId⟩, pin, h.pinned, (),
      checkDevice_eq_ok.mpr h.device, t, h.signedAt, p, h.payload, (), not_not.mpr h.recorded, (),
      h.verifies, ws, hw, rfl⟩
    rw [not_or, not_and, not_not, not_not]
    exact ⟨h.requestId, Classical.or_iff_not_imp_left.mp h.requestIdCopy⟩

/-- Without the strict policy a clock skew is a warning. -/
theorem timeWarnings_of_not_strict {input : ReceiptVerificationInput} (t : DateTime)
    (h : input.strictTime = false) : ∃ ws, timeWarnings input t = .ok ws := by
  simp [timeWarnings, h]

/-! ## The digests a card can have been signed under -/

theorem receiptCandidates_ordinary {E : Externals} {r : Request} {c : RequestSigningContext}
    (hf : r.answerField = none) (hs : r.signing = some c)
    (hc : validCommitment c.recipientsCommitment = true) :
    receiptCandidates E r = .ok
      [(E.sha256Hex (structuredPreimage r c.recipientsCommitment requestDigestVersion),
          .structured),
        (E.sha256Hex (structuredPreimage r c.recipientsCommitment
          legacyStructuredRequestDigestVersion), .legacyStructured),
        (requestDigestLegacyLineSnapshot E r, .legacyLineSnapshot)] := by
  simp only [receiptCandidates, hf, hs, Option.map_some, bind_eq_ok, mapError_eq_ok, pure_eq_ok]
  exact ⟨_, structuredRequestDigest_eq_ok.mpr ⟨hc, rfl⟩, _,
    structuredRequestDigest_eq_ok.mpr ⟨hc, rfl⟩, rfl⟩

theorem receiptCandidates_value {E : Externals} {r : Request} {c : RequestSigningContext}
    {f : AnswerField} (hf : r.answerField = some f) (hs : r.signing = some c)
    (hc : validCommitment c.recipientsCommitment = true) (hv : f.validate = .ok ()) :
    receiptCandidates E r = .ok
      [(E.sha256Hex (valuePreimage r c.recipientsCommitment f valueRequestDigestVersion), .value),
        (E.sha256Hex (valuePreimage r c.recipientsCommitment f legacyValueRequestDigestVersion),
          .legacyValue)] := by
  simp only [receiptCandidates, hf, hs, Option.map_some, bind_eq_ok, orElse_eq_ok,
    mapError_eq_ok, pure_eq_ok]
  exact ⟨_, rfl, _, valueRequestDigestWithVersion_eq_ok.mpr ⟨hc, hv, rfl⟩, _,
    valueRequestDigestWithVersion_eq_ok.mpr ⟨hc, hv, rfl⟩, rfl⟩

/-- A digest among the candidates is matched. -/
theorem matchRequestDigest_of_mem {E : Externals} {r : Request} {found : String}
    {cs : List (String × DigestEncoder)} (hv : checkVersion r = .ok ())
    (hcs : receiptCandidates E r = .ok cs) (hm : found ∈ cs.map Prod.fst) :
    ∃ enc, matchRequestDigest E r found = .ok (found, enc) := by
  obtain ⟨⟨d, enc⟩, hmem, rfl⟩ := List.mem_map.mp hm
  have hsome : (cs.find? fun c => decide (c.1 = d)).isSome := by
    rw [List.find?_isSome]
    exact ⟨_, hmem, by simp⟩
  obtain ⟨⟨d', enc'⟩, hfind⟩ := Option.isSome_iff_exists.mp hsome
  have hd : d' = d := by simpa using List.find?_some hfind
  subst hd
  refine ⟨enc', ?_⟩
  simp only [matchRequestDigest, bind_eq_ok, orElse_eq_ok]
  exact ⟨(), hv, cs, hcs, hfind⟩

end Nod.Proto
