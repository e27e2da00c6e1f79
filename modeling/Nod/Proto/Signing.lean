import Nod.Proto.Request

/-
  Request digests, the ordinary decision payload and P-256 verification
  (`nod-proto/src/signing.rs`). SHA-256, base64url, URL parsing and the curve come from other
  packages: `Externals` holds what this code uses of them. Each digest is the hash of a preimage
  that has its own definition.
-/

namespace Nod.Proto

open Lib

/-! ## Other packages -/

/-- The third-party functions: the hexadecimal SHA-256 of a text's UTF-8 bytes, unpadded base64url,
    SEC1 points, DER signatures, ECDSA over P-256 and the parsed parts of a URL. -/
structure Externals where
  sha256Hex : String → String
  sha256Hex_length : ∀ s, (sha256Hex s).utf8ByteSize = 64
  sha256Hex_lowerHex : ∀ s, ∀ c ∈ (sha256Hex s).toList, Text.isLowerHex c = true
  urlSafeDecode : String → Option (List UInt8)
  sec1Point : List UInt8 → Bool
  derSignature : List UInt8 → Bool
  ecdsaVerify : List UInt8 → String → List UInt8 → Bool

variable (E : Externals)

inductive SigningError where
  | invalidValue (message : String)
  | invalidPublicKey
  | invalidSignatureEncoding
  | signatureMismatch
  | invalidRecipientCommitment
  deriving DecidableEq

def SigningError.toText : SigningError → String
  | .invalidValue message => "invalid value signing input: " ++ message
  | .invalidPublicKey => "invalid signing public key"
  | .invalidSignatureEncoding => "invalid signature encoding"
  | .signatureMismatch => "signature verification failed"
  | .invalidRecipientCommitment => "invalid recipient commitment"

/-! ## Version tags -/

def requestDigestVersion : String := "nod-request-v1"
def legacyLineSnapshotRequestDigestVersion : String := "nod-request-v1"
def legacyStructuredRequestDigestVersion : String := "nod-request-v2"
def decisionPayloadVersion : String := "nod-decision-v1"

/-! ## Decision payload -/

structure DecisionSigningInput where
  requestId : String
  requestDigest : String
  optionId : String
  optionKind : OptionKind
  userId : String
  deviceId : String
  keyId : String
  nonce : String
  signedAt : String
  text : Option String

def decisionSigningPayload (input : DecisionSigningInput) : String :=
  "\n".intercalate
    [decisionPayloadVersion,
      "request_id:" ++ input.requestId,
      "request_digest:" ++ input.requestDigest,
      "option_id:" ++ input.optionId,
      "option_kind:" ++ input.optionKind.asStr,
      "user_id:" ++ input.userId,
      "device_id:" ++ input.deviceId,
      "key_id:" ++ input.keyId,
      "nonce:" ++ input.nonce,
      "signed_at:" ++ input.signedAt,
      "text_sha256:" ++ E.sha256Hex (input.text.getD ""),
      ""]

/-! ## Line snapshot -/

def optMillis : Option DateTime → String
  | none => ""
  | some t => t.toRfc3339Millis

/-- The text behind the historical digest: recipients in the clear, free text joined by lines. -/
def lineSnapshot (r : Request) : String :=
  "nod-request-v1\n" ++
  "request_id:" ++ r.id ++ "\n" ++
  "channel_id:" ++ r.channelId ++ "\n" ++
  "recipients:" ++ ",".intercalate r.recipients ++ "\n" ++
  "decision_resolution:" ++ r.decisionResolution.asStr ++ "\n" ++
  "title_sha256:" ++ E.sha256Hex r.title ++ "\n" ++
  "summary_sha256:" ++ E.sha256Hex r.summary ++ "\n" ++
  "body_markdown_sha256:" ++ E.sha256Hex r.bodyMarkdown ++ "\n" ++
  "fields_sha256:" ++ E.sha256Hex (Json.arr (r.fields.map CardField.toJson)).text ++ "\n" ++
  "links_sha256:" ++ E.sha256Hex (Json.arr (r.links.map CardLink.toJson)).text ++ "\n" ++
  "image_url:" ++ r.imageUrl.getD "" ++ "\n" ++
  "dedupe_key:" ++ r.dedupeKey.getD "" ++ "\n" ++
  "expires_at:" ++ optMillis r.expiresAt ++ "\n" ++
  "created_at:" ++ r.createdAt.toRfc3339Millis ++ "\n" ++
  "options_sha256:" ++
    E.sha256Hex (Json.arr (r.options.map fun o => o.toJson.sorted)).text ++ "\n"

def requestDigestLegacyLineSnapshot (r : Request) : String := E.sha256Hex (lineSnapshot E r)

/-! ## Structured content -/

def recipientsCommitment (recipients : List String) (salt : String) : String :=
  E.sha256Hex ("nod-recipients-v2\n" ++
    (Json.arr [.str salt, .arr (recipients.map .str)]).text)

/-- A recipients commitment is 64 hexadecimal digits. -/
def validCommitment (commitment : String) : Bool :=
  commitment.utf8ByteSize == 64 && commitment.toList.all Text.isHexDigit

def optMillisJson : Option DateTime → Json
  | none => .null
  | some t => .str t.toRfc3339Millis

/-- The members both structured encoders sign. -/
def contentMembers (r : Request) (commitment : String) : List (String × Json) :=
  [("request_id", .str r.id),
    ("channel_id", .str r.channelId),
    ("recipients_commitment", .str commitment),
    ("decision_resolution", .str r.decisionResolution.asStr),
    ("title", .str r.title),
    ("summary", .str r.summary),
    ("body_markdown", .str r.bodyMarkdown),
    ("fields", .arr (r.fields.map CardField.toJson)),
    ("links", .arr (r.links.map CardLink.toJson)),
    ("image_url", JsonOf.optStr r.imageUrl),
    ("notification", r.notification.toJson),
    ("dedupe_key", JsonOf.optStr r.dedupeKey),
    ("expires_at", optMillisJson r.expiresAt),
    ("created_at", .str r.createdAt.toRfc3339Millis),
    ("callback_url", JsonOf.optStr r.callbackUrl),
    ("options", .arr (r.options.map RequestOption.toJson))]

/-- The text behind a structured digest under a version tag. -/
def structuredPreimage (r : Request) (commitment version : String) : String :=
  version ++ "\n" ++ (Json.obj (contentMembers r commitment)).sorted.text ++ "\n"

def structuredRequestDigest (r : Request) (commitment version : String) :
    Except SigningError String := do
  refuseIf (validCommitment commitment = false) SigningError.invalidRecipientCommitment
  pure (E.sha256Hex (structuredPreimage r commitment version))

/-- The current ordinary digest. -/
def requestDigestV1 (r : Request) (commitment : String) : Except SigningError String :=
  structuredRequestDigest E r commitment requestDigestVersion

/-- The structured encoding under its earlier tag, kept for stored signatures. -/
def requestDigestLegacyStructuredV2 (r : Request) (commitment : String) :
    Except SigningError String :=
  structuredRequestDigest E r commitment legacyStructuredRequestDigestVersion

/-- The ordinary digest a received tag selects, `none` for an unknown tag. -/
def requestDigestForVersion (r : Request) (version commitment : String) :
    Except SigningError (Option String) :=
  if version = requestDigestVersion then some <$> requestDigestV1 E r commitment
  else if version = legacyStructuredRequestDigestVersion then
    some <$> requestDigestLegacyStructuredV2 E r commitment
  else .ok none

/-! ## P-256 -/

def uncompressedP256PublicKeyLength : Nat := 65
def uncompressedP256PublicKeyPrefix : UInt8 := 4

def decodePublicKey (publicKey : String) : Except SigningError (List UInt8) := do
  let bytes ← orElse .invalidPublicKey (E.urlSafeDecode publicKey)
  refuseIf (¬ (bytes.head? = some uncompressedP256PublicKeyPrefix ∧
    bytes.length = uncompressedP256PublicKeyLength)) SigningError.invalidPublicKey
  pure bytes

def validatePublicKey (publicKey : String) : Except SigningError Unit := do
  let _ ← decodePublicKey E publicKey
  pure ()

def verifyPayload (publicKey payload signature : String) : Except SigningError Unit := do
  let key ← decodePublicKey E publicKey
  refuseIf (E.sec1Point key = false) SigningError.invalidPublicKey
  let bytes ← orElse .invalidSignatureEncoding (E.urlSafeDecode signature)
  refuseIf (E.derSignature bytes = false) SigningError.invalidSignatureEncoding
  refuseIf (E.ecdsaVerify key payload bytes = false) SigningError.signatureMismatch

/-! ## What a hash is made of -/

theorem isHexDigit_sha256Hex (s : String) :
    ∀ c ∈ (E.sha256Hex s).toList, Text.isHexDigit c = true :=
  fun c hc => Text.isHexDigit_of_isLowerHex (E.sha256Hex_lowerHex s c hc)

/-- A computed commitment passes the encoders' check. -/
theorem validCommitment_sha256Hex (s : String) : validCommitment (E.sha256Hex s) = true := by
  simp only [validCommitment, Bool.and_eq_true, beq_iff_eq, List.all_eq_true]
  exact ⟨E.sha256Hex_length s, isHexDigit_sha256Hex E s⟩

theorem free_sha256Hex (s : String) : Text.Free '\n' (E.sha256Hex s) :=
  Text.free_of_all (isHexDigit_sha256Hex E s) (by decide)

end Nod.Proto
