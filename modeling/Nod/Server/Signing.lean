import Nod.Server.Lifecycle

/-
  The server's check of a submitted signature (`signing.rs`): algorithm, key id, nonce, digest
  binding, signing time, payload and P-256.
  Proved: `verifyValueDecisionSignature_eq_ok`, the checks as one condition.
-/

namespace Nod.Server

open Lib Nod.Proto

variable (P : Packages)

def digestError {α : Type} (x : Except SigningError α) : Except ApiError α :=
  x.mapError fun e => .badRequest e.toText

/-- Every digest this card can have been issued under. -/
def digestCandidates (request : DecisionRequest) : Except ApiError (List String) :=
  let wire := request.toWire P.toExternals
  let commitment := wire.signing.map RequestSigningContext.recipientsCommitment
  match request.answerField with
  | some field => do
    let commitment ← orElse (.badRequest "value request is missing its signing context") commitment
    let current ← digestError (valueRequestDigest P.toExternals wire commitment field)
    let legacy ← digestError (valueRequestDigestLegacyV3 P.toExternals wire commitment field)
    pure [current, legacy]
  | none =>
    let stamped := wire.requestDigest.getD (requestDigestLegacyLineSnapshot P.toExternals wire)
    match commitment with
    | some commitment => do
      let current ← digestError (requestDigestV1 P.toExternals wire commitment)
      let legacy ← digestError (requestDigestLegacyStructuredV2 P.toExternals wire commitment)
      pure [stamped, current, legacy]
    | none => pure [stamped]

def signingInput (request : DecisionRequest) (option : RequestOption) (actor : Device)
    (text : Option String) (provided : DecisionSignature) (signedAt : String) :
    DecisionSigningInput :=
  { requestId := request.id, requestDigest := provided.requestDigest, optionId := option.id
    optionKind := option.kind, userId := actor.userId, deviceId := actor.id
    keyId := provided.keyId, nonce := provided.nonce, signedAt, text }

/-- The payload the device must have signed. -/
def expectedPayload (request : DecisionRequest) (provided : DecisionSignature)
    (answer : Option AnswerValue) (input : DecisionSigningInput) : Except ApiError String :=
  match request.answerField with
  | some field => do
    refuseIf (provided.payloadVersion ≠ some valueDecisionPayloadVersion ∨
      provided.signedAt ≠ input.signedAt) (ApiError.badRequest "invalid value signature context")
    let answer ← orElse (.badRequest "explicit answer_value required") answer
    (field.validateValue answer).mapError .badRequest
    digestError (decisionSigningPayloadV2 input answer)
  | none => do
    refuseIf (answer ≠ none ∨ provided.payloadVersion ≠ none)
      (ApiError.badRequest "ordinary request does not accept value payload")
    pure (decisionSigningPayload P.toExternals input)

def verifyValueDecisionSignature (request : DecisionRequest) (option : RequestOption)
    (actor : Device) (text : Option String) (provided : DecisionSignature)
    (answer : Option AnswerValue) : Except ApiError (String × String) := do
  let deviceKeyId ← orElse (.badRequest "device does not have a registered signing key")
    actor.signingKeyId
  let publicKey ← orElse (.badRequest "device does not have a registered signing key")
    actor.signingPublicKey
  refuseIf (actor.signingKeyAlgorithm.getD decisionSigningAlgorithm ≠ decisionSigningAlgorithm ∨
      provided.algorithm ≠ decisionSigningAlgorithm)
    (ApiError.badRequest "unsupported decision signature algorithm")
  refuseIf (provided.keyId ≠ deviceKeyId)
    (ApiError.badRequest "decision signature key_id does not match this device")
  refuseIf (Text.trim provided.nonce = "" ∨ 160 < provided.nonce.utf8ByteSize)
    (ApiError.badRequest "decision signature nonce is required")
  let candidates ← digestCandidates P request
  refuseIf (provided.requestDigest ∉ candidates)
    (ApiError.badRequest
      "decision signature request_digest does not match the request snapshot")
  let signedAt ← orElse (.badRequest "decision signature signed_at is invalid")
    (DateTime.parseFromRfc3339 provided.signedAt)
  let payload ← expectedPayload P request provided answer
    (signingInput request option actor text provided signedAt.toRfc3339Millis)
  (verifyPayload P.toExternals publicKey payload provided.signature).mapError
    fun _ => ApiError.forbidden
  pure (provided.requestDigest, payload)

/-- A public key of the right shape, checked when a device enrolls. -/
def validateDevicePublicKey (publicKey : String) : Except ApiError Unit :=
  (validatePublicKey P.toExternals publicKey).mapError
    fun _ => .badRequest "registered signing public key is invalid"

/-! ## The checks as one condition -/

/-- A signature the server accepts, and the payload it covers. -/
structure SignatureValid (request : DecisionRequest) (option : RequestOption) (actor : Device)
    (text : Option String) (provided : DecisionSignature) (answer : Option AnswerValue)
    (payload : String) : Prop where
  keyId : actor.signingKeyId = some provided.keyId
  publicKey : ∃ key, actor.signingPublicKey = some key ∧
    verifyPayload P.toExternals key payload provided.signature = .ok ()
  deviceAlgorithm :
    actor.signingKeyAlgorithm.getD decisionSigningAlgorithm = decisionSigningAlgorithm
  algorithm : provided.algorithm = decisionSigningAlgorithm
  nonce : Text.trim provided.nonce ≠ "" ∧ provided.nonce.utf8ByteSize ≤ 160
  digest : ∃ candidates, digestCandidates P request = .ok candidates ∧
    provided.requestDigest ∈ candidates
  signedAt : ∃ t, DateTime.parseFromRfc3339 provided.signedAt = some t ∧
    expectedPayload P request provided answer
      (signingInput request option actor text provided t.toRfc3339Millis) = .ok payload

theorem verifyValueDecisionSignature_eq_ok {request : DecisionRequest} {option : RequestOption}
    {actor : Device} {text : Option String} {provided : DecisionSignature}
    {answer : Option AnswerValue} {r : String × String} :
    verifyValueDecisionSignature P request option actor text provided answer = .ok r ↔
      SignatureValid P request option actor text provided answer r.2 ∧
        r.1 = provided.requestDigest := by
  simp only [verifyValueDecisionSignature, bind_eq_ok, orElse_eq_ok, refuseIf_eq_ok,
    mapError_eq_ok, pure_eq_ok, not_or, not_not, not_lt]
  constructor
  · rintro ⟨keyId, hkey, publicKey, hpub, _, ⟨hdev, halg⟩, _, rfl, _, hnonce, candidates, hcand, _,
      hmem, t, ht, payload, hpay, _, hver, rfl⟩
    exact ⟨⟨hkey, ⟨publicKey, hpub, hver⟩, hdev, halg, hnonce, ⟨candidates, hcand, hmem⟩,
      ⟨t, ht, hpay⟩⟩, rfl⟩
  · rintro ⟨h, hr⟩
    obtain ⟨publicKey, hpub, hver⟩ := h.publicKey
    obtain ⟨candidates, hcand, hmem⟩ := h.digest
    obtain ⟨t, ht, hpay⟩ := h.signedAt
    exact ⟨_, h.keyId, publicKey, hpub, (), ⟨h.deviceAlgorithm, h.algorithm⟩, (), rfl, (), h.nonce,
      candidates, hcand, (), hmem, t, ht, r.2, hpay, (), hver, Prod.ext hr.symm rfl⟩

end Nod.Server
