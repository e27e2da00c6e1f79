import Nod.Lib.Rfc3339
import Nod.Proto.Answer

/-
  Request cards, decisions and their signatures, with the JSON each of them serialises to
  (`nod-proto/src/request.rs`, `nod-proto/src/decision.rs`). A record writes its members in
  declaration order; an absent option is `null` unless the source skips it.
-/

namespace Nod.Proto

open Lib

def decisionSigningAlgorithm : String := "p256_ecdsa_sha256"

/-! ## Card parts -/

structure CardField where
  label : String
  value : String
  style : Option String
  deriving DecidableEq

structure CardLink where
  label : String
  url : String
  deriving DecidableEq

inductive OptionKind where
  | approve
  | approveWithText
  | reject
  | rejectWithText
  | dismiss
  | open
  | custom
  deriving DecidableEq

def OptionKind.asStr : OptionKind → String
  | .approve => "approve"
  | .approveWithText => "approve_with_text"
  | .reject => "reject"
  | .rejectWithText => "reject_with_text"
  | .dismiss => "dismiss"
  | .open => "open"
  | .custom => "custom"

/-- Any other text is a custom kind. -/
def OptionKind.ofStr (s : String) : OptionKind :=
  if s = "approve" then .approve
  else if s = "approve_with_text" then .approveWithText
  else if s = "reject" then .reject
  else if s = "reject_with_text" then .rejectWithText
  else if s = "dismiss" then .dismiss
  else if s = "open" then .open
  else .custom

@[simp] theorem OptionKind.ofStr_asStr (k : OptionKind) : OptionKind.ofStr k.asStr = k := by
  cases k <;> decide

structure RequestOption where
  id : String
  label : String
  kind : OptionKind
  style : String
  requiresText : Bool
  textPlaceholder : Option String
  destructive : Bool
  foreground : Bool
  deriving DecidableEq

structure RequestNotification where
  redact : Bool
  title : Option String
  body : Option String
  deriving DecidableEq

inductive RequestStatus where
  | pending
  | resolved
  | expired
  | cancelled
  deriving DecidableEq

def RequestStatus.asStr : RequestStatus → String
  | .pending => "pending"
  | .resolved => "resolved"
  | .expired => "expired"
  | .cancelled => "cancelled"

inductive DecisionResolution where
  | shared
  | perUser
  deriving DecidableEq

def DecisionResolution.asStr : DecisionResolution → String
  | .shared => "shared"
  | .perUser => "per_user"

theorem DecisionResolution.asStr_inj {a b : DecisionResolution} (h : a.asStr = b.asStr) :
    a = b := by
  cases a <;> cases b <;> first | rfl | exact absurd h (by decide)

/-! ## Decisions -/

/-- What a client submits. -/
structure DecisionSignature where
  payloadVersion : Option String
  keyId : String
  algorithm : String
  nonce : String
  signedAt : String
  requestDigest : String
  signature : String
  deriving DecidableEq

/-- What the server records and republishes. -/
structure DecisionSignatureRecord where
  payloadVersion : Option String
  keyId : String
  algorithm : String
  nonce : String
  signedAt : String
  requestDigest : String
  signingPayload : String
  signature : String
  verified : Bool
  publicKey : Option String
  deriving DecidableEq

structure Decision where
  answerValue : Option AnswerValue
  requestId : String
  optionId : String
  optionKind : OptionKind
  optionLabel : String
  text : Option String
  actorUserId : Option String
  actorDeviceId : Option String
  signature : Option DecisionSignatureRecord
  resolvedAt : DateTime
  deriving DecidableEq

/-- One user's decision under per-user resolution. -/
structure UserDecision where
  userId : String
  decision : Decision
  deriving DecidableEq

structure SubmitDecisionRequest where
  answerValue : Option AnswerValue
  text : Option String
  signature : Option DecisionSignature
  deriving DecidableEq

/-! ## Requests -/

structure RequestSigningContext where
  version : String
  recipientsCommitment : String
  requestDigest : String
  deriving DecidableEq

/-- A request as it appears on the wire. -/
structure Request where
  answerField : Option AnswerField
  id : String
  requestId : String
  channelId : String
  recipients : List String
  decisionResolution : DecisionResolution
  title : String
  summary : String
  bodyMarkdown : String
  fields : List CardField
  links : List CardLink
  imageUrl : Option String
  notification : RequestNotification
  dedupeKey : Option String
  expiresAt : Option DateTime
  status : RequestStatus
  createdAt : DateTime
  updatedAt : DateTime
  resolvedAt : Option DateTime
  decision : Option Decision
  decisions : List UserDecision
  callbackUrl : Option String
  options : List RequestOption
  requestDigest : Option String
  signing : Option RequestSigningContext
  deriving DecidableEq

/-- What a client that cannot answer value cards gets in place of one. -/
def Request.legacyValueProjection (r : Request) : Request :=
  match r.answerField with
  | none => r
  | some _ =>
    { r with
      answerField := none
      summary := "Open in an updated Nod app to answer this request."
      bodyMarkdown := "Open in an updated Nod app to answer this request."
      fields := []
      links := []
      imageUrl := none
      notification := { redact := false, title := none, body := none }
      decision := none
      decisions := []
      callbackUrl := none
      requestDigest := none
      options :=
        [{ id := "__nod_value_open", label := "Open in app", kind := .custom, style := "default"
           requiresText := false, textPlaceholder := none, destructive := false
           foreground := true }] }

/-- The issuer's body for creating a request. -/
structure CreateDecisionRequest where
  answerField : Option AnswerField
  channelId : String
  recipients : Option (List String)
  decisionResolution : Option DecisionResolution
  title : String
  summary : String
  bodyMarkdown : String
  fields : List CardField
  links : List CardLink
  imageUrl : Option String
  notification : RequestNotification
  dedupeKey : Option String
  expiresAt : Option DateTime
  options : List RequestOption
  callbackUrl : Option String
  deriving DecidableEq

/-! ## JSON -/

namespace JsonOf

def optStr : Option String → Json
  | none => .null
  | some s => .str s

def optTime : Option DateTime → Json
  | none => .null
  | some t => .str t.toRfc3339AutoSi

/-- A member that is left out when absent. -/
def skipNone {α : Type} (key : String) (f : α → Json) : Option α → List (String × Json)
  | none => []
  | some a => [(key, f a)]

end JsonOf

open JsonOf

def CardField.toJson (f : CardField) : Json :=
  .obj [("label", .str f.label), ("value", .str f.value), ("style", optStr f.style)]

def CardLink.toJson (l : CardLink) : Json :=
  .obj [("label", .str l.label), ("url", .str l.url)]

def RequestOption.toJson (o : RequestOption) : Json :=
  .obj [("id", .str o.id), ("label", .str o.label), ("kind", .str o.kind.asStr),
    ("style", .str o.style), ("requires_text", .bool o.requiresText),
    ("text_placeholder", optStr o.textPlaceholder), ("destructive", .bool o.destructive),
    ("foreground", .bool o.foreground)]

def RequestNotification.toJson (n : RequestNotification) : Json :=
  .obj [("redact", .bool n.redact), ("title", optStr n.title), ("body", optStr n.body)]

def DecisionSignatureRecord.toJson (s : DecisionSignatureRecord) : Json :=
  .obj (skipNone "payload_version" .str s.payloadVersion ++
    [("key_id", .str s.keyId), ("algorithm", .str s.algorithm), ("nonce", .str s.nonce),
      ("signed_at", .str s.signedAt), ("request_digest", .str s.requestDigest),
      ("signing_payload", .str s.signingPayload), ("signature", .str s.signature),
      ("verified", .bool s.verified)] ++
    skipNone "public_key" .str s.publicKey)

def optJson {α : Type} (f : α → Json) : Option α → Json
  | none => .null
  | some a => f a

def Decision.toJson (d : Decision) : Json :=
  .obj (skipNone "answer_value" AnswerValue.toJson d.answerValue ++
    [("request_id", .str d.requestId), ("option_id", .str d.optionId),
      ("option_kind", .str d.optionKind.asStr), ("option_label", .str d.optionLabel),
      ("text", optStr d.text), ("actor_user_id", optStr d.actorUserId),
      ("actor_device_id", optStr d.actorDeviceId),
      ("signature", optJson DecisionSignatureRecord.toJson d.signature),
      ("resolved_at", .str d.resolvedAt.toRfc3339AutoSi)])

def UserDecision.toJson (d : UserDecision) : Json :=
  .obj [("user_id", .str d.userId), ("decision", d.decision.toJson)]

def RequestSigningContext.toJson (c : RequestSigningContext) : Json :=
  .obj [("version", .str c.version), ("recipients_commitment", .str c.recipientsCommitment),
    ("request_digest", .str c.requestDigest)]

def Request.toJson (r : Request) : Json :=
  .obj (skipNone "answer_field" AnswerField.toJson r.answerField ++
    [("id", .str r.id), ("request_id", .str r.requestId), ("channel_id", .str r.channelId),
      ("recipients", .arr (r.recipients.map .str)),
      ("decision_resolution", .str r.decisionResolution.asStr), ("title", .str r.title),
      ("summary", .str r.summary), ("body_markdown", .str r.bodyMarkdown),
      ("fields", .arr (r.fields.map CardField.toJson)),
      ("links", .arr (r.links.map CardLink.toJson)), ("image_url", optStr r.imageUrl),
      ("notification", r.notification.toJson), ("dedupe_key", optStr r.dedupeKey),
      ("expires_at", optTime r.expiresAt), ("status", .str r.status.asStr),
      ("created_at", .str r.createdAt.toRfc3339AutoSi),
      ("updated_at", .str r.updatedAt.toRfc3339AutoSi), ("resolved_at", optTime r.resolvedAt),
      ("decision", optJson Decision.toJson r.decision),
      ("decisions", .arr (r.decisions.map UserDecision.toJson)),
      ("callback_url", optStr r.callbackUrl),
      ("options", .arr (r.options.map RequestOption.toJson)),
      ("request_digest", optStr r.requestDigest)] ++
    skipNone "signing" RequestSigningContext.toJson r.signing)

def CreateDecisionRequest.toJson (r : CreateDecisionRequest) : Json :=
  .obj (skipNone "answer_field" AnswerField.toJson r.answerField ++
    [("channel_id", .str r.channelId),
      ("recipients", optJson (fun ids => .arr (ids.map .str)) r.recipients),
      ("decision_resolution", optJson (fun d => .str d.asStr) r.decisionResolution),
      ("title", .str r.title), ("summary", .str r.summary),
      ("body_markdown", .str r.bodyMarkdown), ("fields", .arr (r.fields.map CardField.toJson)),
      ("links", .arr (r.links.map CardLink.toJson)), ("image_url", optStr r.imageUrl),
      ("notification", r.notification.toJson), ("dedupe_key", optStr r.dedupeKey),
      ("expires_at", optTime r.expiresAt),
      ("options", .arr (r.options.map RequestOption.toJson)),
      ("callback_url", optStr r.callbackUrl)])

end Nod.Proto
