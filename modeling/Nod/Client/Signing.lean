import Nod.Proto.ValueSigning

/-
  The client's decision signature (`nod-client-core/src/signing.rs`): the digest a request copy
  asserts for itself, the digest its content has, the option, the payload and the signer.
  Proved: `buildValueDecisionSignature_eq_ok`, everything a signature has been checked for and
  the payload it covers.
-/

namespace Nod.Client

open Lib Nod.Proto

variable (E : Externals)

/-- What refuses a copy that is not the one the user reviewed. -/
def requestChangedError : String := "Request changed. Review it again before answering."

def implicitDismissOptionId : String := "dismiss"

/-- A device's signing primitive: its identity, and the signature of a payload. -/
structure DeviceSigner where
  keyId : String
  algorithm : String
  sign : String → Except String String

structure DecisionSigningRequest where
  request : Request
  optionId : String
  text : Option String
  userId : String
  deviceId : String

/-- The digest a copy asserts for itself, which a submission has to echo. -/
def assertedRequestDigest (request : Request) : Option String :=
  (request.signing.map RequestSigningContext.requestDigest).or request.requestDigest

structure OptionRef where
  id : String
  kind : OptionKind

/-- An offered option, or the dismissal of an ordinary card without options. -/
def optionFor (request : Request) (optionId : String) : Except String OptionRef :=
  match request.options.find? fun option => option.id = optionId with
  | some option => .ok { id := option.id, kind := option.kind }
  | none =>
    if request.answerField = none ∧ optionId = implicitDismissOptionId ∧ request.options = [] then
      .ok { id := implicitDismissOptionId, kind := .dismiss }
    else .error ("option " ++ optionId ++ " is not available for " ++ request.id)

def trimmedText (text : String) : Option String :=
  if Text.trim text = "" then none else some (Text.trim text)

def signingError {α : Type} (x : Except SigningError α) : Except String α :=
  x.mapError SigningError.toText

theorem trimmedNotes_eq (text : Option String) : trimmedNotes text = text.bind trimmedText := by
  unfold trimmedNotes trimmedText
  obtain _ | t := text
  · rfl
  · rw [Option.map_some, Option.bind_some, Option.filter_some]
    by_cases h : Text.trim t = ""
    · rw [if_pos h, if_neg (by simp [h])]
    · rw [if_neg h, if_pos (by simp [h])]

theorem trimmedNotes_eq_some {text : Option String} {v : String} :
    trimmedNotes text = some v ↔ ∃ t, text = some t ∧ Text.trim t = v ∧ v ≠ "" := by
  unfold trimmedNotes
  simp only [Option.filter_eq_some_iff, Option.map_eq_some_iff, decide_eq_true_eq]
  constructor
  · intro h
    obtain ⟨⟨t, ht, htrim⟩, hne⟩ := h
    exact ⟨t, ht, htrim, hne⟩
  · intro h
    obtain ⟨t, ht, htrim, hne⟩ := h
    exact ⟨⟨t, ht, htrim⟩, hne⟩

theorem trimmedNotes_trimmedNotes (text : Option String) :
    trimmedNotes (trimmedNotes text) = trimmedNotes text := by
  ext v
  rw [trimmedNotes_eq_some, trimmedNotes_eq_some]
  constructor
  · intro h
    obtain ⟨u, hu, rfl, hne⟩ := h
    obtain ⟨t, ht, rfl, -⟩ := trimmedNotes_eq_some.mp hu
    exact ⟨t, ht, (Text.trim_trim t).symm, hne⟩
  · intro h
    obtain ⟨t, ht, rfl, hne⟩ := h
    exact ⟨Text.trim t, trimmedNotes_eq_some.mpr ⟨t, ht, rfl, hne⟩, Text.trim_trim t, hne⟩

/-! ## Checks -/

def checkAnswer (request : Request) (answer : Option AnswerValue) : Except String Unit :=
  match request.answerField with
  | some field => do
    field.validate
    let answer ← orElse "explicit answer_value required" answer
    field.validateValue answer
  | none => refuseIf (answer ≠ none) "ordinary request does not accept answer_value"

/-- The digest of a copy under the encoder its received tag selects. -/
def recomputedDigest (request : Request) (context : RequestSigningContext) :
    Except String (Option String) :=
  match request.answerField with
  | some field =>
    signingError (valueRequestDigestForVersion E request context.version
      context.recipientsCommitment field)
  | none =>
    signingError (requestDigestForVersion E request context.version context.recipientsCommitment)

/-- The digest a copy asserts and the one its content has. Without a signing context that is the
    line snapshot, whatever else the copy holds. -/
def digestsOf (request : Request) : Except String (String × String) :=
  match request.signing with
  | some context => do
    let recomputed ← recomputedDigest E request context
    let recomputed ← orElse ("unsupported request signing version: " ++ context.version) recomputed
    pure (context.requestDigest, recomputed)
  | none => do
    let requestDigest ← orElse ("request digest is missing for " ++ request.id)
      request.requestDigest
    pure (requestDigest, requestDigestLegacyLineSnapshot E request)

/-! ## The signature -/

def signingInputOf (signer : DeviceSigner) (nonce : String) (signedAt : DateTime)
    (signing : DecisionSigningRequest) (requestDigest : String) (option : OptionRef) :
    DecisionSigningInput :=
  { requestId := signing.request.id, requestDigest, optionId := option.id
    optionKind := option.kind, userId := signing.userId, deviceId := signing.deviceId
    keyId := signer.keyId, nonce, signedAt := signedAt.toRfc3339Millis
    text := signing.text.bind trimmedText }

/-- An answer goes under the v2 payload, an ordinary decision under v1. -/
def signedPayload (input : DecisionSigningInput) : Option AnswerValue → Except String String
  | some answer => signingError (decisionSigningPayloadV2 input answer)
  | none => .ok (decisionSigningPayload E input)

/-- A signature over `signing`, for the digest of the copy that the user was shown. -/
def buildValueDecisionSignature (signer : DeviceSigner) (nonce : String) (signedAt : DateTime)
    (signing : DecisionSigningRequest) (answer : Option AnswerValue)
    (expectedDigest : Option String) : Except String DecisionSignature := do
  checkAnswer signing.request answer
  let (requestDigest, recomputed) ← digestsOf E signing.request
  refuseIf (expectedDigest = none ∨ expectedDigest = some "" ∨ expectedDigest ≠ some requestDigest)
    requestChangedError
  refuseIf (recomputed ≠ requestDigest)
    ("request digest does not match request content for " ++ signing.request.id)
  let option ← optionFor signing.request signing.optionId
  let payload ← signedPayload E
    (signingInputOf signer nonce signedAt signing requestDigest option) answer
  let signature ← signer.sign payload
  pure
    { payloadVersion := answer.map fun _ => valueDecisionPayloadVersion
      keyId := signer.keyId, algorithm := signer.algorithm, nonce
      signedAt := signedAt.toRfc3339Millis, requestDigest, signature }

/-! ## What a signature has been checked for -/

/-- A signature of the client, the digest of the copy under it and the payload it covers. -/
structure BuildsSignature (signer : DeviceSigner) (nonce : String) (signedAt : DateTime)
    (signing : DecisionSigningRequest) (answer : Option AnswerValue)
    (expectedDigest : Option String) (option : OptionRef) (payload : String)
    (built : DecisionSignature) : Prop where
  fits : checkAnswer signing.request answer = .ok ()
  digest : digestsOf E signing.request = .ok (built.requestDigest, built.requestDigest)
  expected : expectedDigest = some built.requestDigest ∧ built.requestDigest ≠ ""
  offered : optionFor signing.request signing.optionId = .ok option
  covers : signedPayload E
    (signingInputOf signer nonce signedAt signing built.requestDigest option) answer = .ok payload
  signed : signer.sign payload = .ok built.signature
  record : built =
    { payloadVersion := answer.map fun _ => valueDecisionPayloadVersion
      keyId := signer.keyId, algorithm := signer.algorithm, nonce
      signedAt := signedAt.toRfc3339Millis, requestDigest := built.requestDigest
      signature := built.signature }

variable {E}

theorem buildValueDecisionSignature_eq_ok {signer : DeviceSigner} {nonce : String}
    {signedAt : DateTime} {signing : DecisionSigningRequest} {answer : Option AnswerValue}
    {expectedDigest : Option String} {built : DecisionSignature} :
    buildValueDecisionSignature E signer nonce signedAt signing answer expectedDigest = .ok built ↔
      ∃ option payload, BuildsSignature E signer nonce signedAt signing answer expectedDigest
        option payload built := by
  simp only [buildValueDecisionSignature, bind_eq_ok, refuseIf_eq_ok, pure_eq_ok, not_or, not_not,
    Prod.exists]
  constructor
  · rintro ⟨_, hanswer, digest, recomputed, hdigests, _, ⟨-, hempty, hexpected⟩, _, rfl, option,
      hoption, payload, hpayload, signature, hsigned, rfl⟩
    rw [hexpected] at hempty
    exact ⟨option, payload, hanswer, hdigests, ⟨hexpected, fun h => hempty (congrArg some h)⟩,
      hoption, hpayload, hsigned, rfl⟩
  · rintro ⟨option, payload, h⟩
    obtain ⟨hexpected, hempty⟩ := h.expected
    refine ⟨(), h.fits, _, _, h.digest, (), ⟨?_, ?_, hexpected⟩, (), rfl, option, h.offered,
      payload, h.covers, built.signature, h.signed, h.record.symm⟩
    · rw [hexpected]
      exact Option.some_ne_none _
    · rw [hexpected]
      exact fun h => hempty (Option.some.inj h)

/-- What covers a copy without an answer field is a v1 payload. -/
theorem BuildsSignature.ordinary {signer : DeviceSigner} {nonce : String} {signedAt : DateTime}
    {signing : DecisionSigningRequest} {answer : Option AnswerValue}
    {expectedDigest : Option String} {option : OptionRef} {payload : String}
    {built : DecisionSignature}
    (h : BuildsSignature E signer nonce signedAt signing answer expectedDigest option payload built)
    (hfield : signing.request.answerField = none) :
    answer = none ∧ payload = decisionSigningPayload E
      (signingInputOf signer nonce signedAt signing built.requestDigest option) := by
  have hnone : answer = none := by
    have hanswer := h.fits
    unfold checkAnswer at hanswer
    rw [hfield] at hanswer
    exact not_not.mp (refuseIf_eq_ok.mp hanswer)
  have hpayload := h.covers
  rw [hnone] at hpayload
  exact ⟨hnone, (Except.ok.inj hpayload).symm⟩

end Nod.Client
