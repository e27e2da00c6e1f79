import Nod.Lib.JsonRead
import Nod.Lib.Record
import Nod.Proto.ValueSigning

/-
  The readers that `serde` derives for the wire records (`nod-proto/src/request.rs`,
  `nod-proto/src/decision.rs`, `nod-proto/src/answer.rs`). How the text of a timestamp is read is a
  parameter.
  Proved: a request and a submission read back as they were written, whatever the order of the
  members, the unknown members between them and the defaults left out; a submission with an unknown
  member is refused (`wire_round_trip`).
-/

namespace Nod.Proto

open Lib Lib.Record

/-! ## Answers -/

def AnswerValue.cases : List String := ["choice", "number", "date", "date_time"]

/-- The one member of a case of an answer. -/
def onlyString (k : String) (v : Json) : Option String := do
  let ms ← (Shape.mk [k] true).members v
  required k string ms

def AnswerValue.ofJson (buffered : Bool) (v : Json) : Option AnswerValue := do
  let (case_, v) ← tagged "kind" AnswerValue.cases buffered v
  if case_ = "choice" then (onlyString "choice_id" v).map .choice
  else if case_ = "number" then (onlyString "decimal" v).map .number
  else if case_ = "date" then (onlyString "date" v).map .date
  else (onlyString "instant" v).map .dateTime

def AnswerChoice.ofJson (v : Json) : Option AnswerChoice := do
  let ms ← (Shape.mk ["id", "label"] true).members v
  let id ← required "id" string ms
  let label ← required "label" string ms
  some { id, label }

/-- A field without choices. -/
def plainField (make : String → AnswerValue → AnswerField) (v : Json) : Option AnswerField := do
  let ms ← (Shape.mk ["label", "default"] true).members v
  let label ← required "label" string ms
  let default ← required "default" (AnswerValue.ofJson true) ms
  some (make label default)

def AnswerField.ofJson (v : Json) : Option AnswerField := do
  let (case_, v) ← tagged "kind" AnswerValue.cases false v
  if case_ = "choice" then
    let ms ← (Shape.mk ["label", "choices", "default"] true).members v
    let label ← required "label" string ms
    let choices ← required "choices" (items AnswerChoice.ofJson) ms
    let default ← required "default" (AnswerValue.ofJson true) ms
    some (.choice label choices default)
  else if case_ = "number" then plainField .number v
  else if case_ = "date" then plainField .date v
  else plainField .dateTime v

/-! ## Card parts -/

def CardField.ofJson (v : Json) : Option CardField := do
  let ms ← (Shape.mk ["label", "value", "style"] false).members v
  let label ← required "label" string ms
  let value ← required "value" string ms
  let style ← withDefault none "style" (nullable string) ms
  some { label, value, style }

def CardLink.ofJson (v : Json) : Option CardLink := do
  let ms ← (Shape.mk ["label", "url"] false).members v
  let label ← required "label" string ms
  let url ← required "url" string ms
  some { label, url }

/-- No other text is a kind here. -/
def OptionKind.named (s : String) : Option OptionKind :=
  [approve, approveWithText, reject, rejectWithText, dismiss, .open, custom].find? fun k =>
    k.asStr = s

def RequestStatus.named (s : String) : Option RequestStatus :=
  [pending, resolved, expired, cancelled].find? fun status => status.asStr = s

def DecisionResolution.named (s : String) : Option DecisionResolution :=
  [shared, perUser].find? fun resolution => resolution.asStr = s

def RequestOption.ofJson (v : Json) : Option RequestOption := do
  let ms ← (Shape.mk ["id", "label", "kind", "style", "requires_text", "text_placeholder",
    "destructive", "foreground"] false).members v
  let id ← required "id" string ms
  let label ← required "label" string ms
  let kind ← required "kind" (unitCase OptionKind.named) ms
  let style ← withDefault "default" "style" string ms
  let requiresText ← withDefault false "requires_text" boolean ms
  let textPlaceholder ← withDefault none "text_placeholder" (nullable string) ms
  let destructive ← withDefault false "destructive" boolean ms
  let foreground ← withDefault false "foreground" boolean ms
  some { id, label, kind, style, requiresText, textPlaceholder, destructive, foreground }

def RequestNotification.none : RequestNotification :=
  { redact := false, title := Option.none, body := Option.none }

def RequestNotification.ofJson (v : Json) : Option RequestNotification := do
  let ms ← (Shape.mk ["redact", "title", "body"] true).members v
  let redact ← withDefault false "redact" boolean ms
  let title ← withDefault Option.none "title" (nullable string) ms
  let body ← withDefault Option.none "body" (nullable string) ms
  some { redact, title, body }

/-! ## Decisions -/

def DecisionSignature.ofJson (v : Json) : Option DecisionSignature := do
  let ms ← (Shape.mk ["payload_version", "key_id", "algorithm", "nonce", "signed_at",
    "request_digest", "signature"] false).members v
  let payloadVersion ← withDefault none "payload_version" (present string) ms
  let keyId ← required "key_id" string ms
  let algorithm ← withDefault decisionSigningAlgorithm "algorithm" string ms
  let nonce ← required "nonce" string ms
  let signedAt ← required "signed_at" string ms
  let requestDigest ← required "request_digest" string ms
  let signature ← required "signature" string ms
  some { payloadVersion, keyId, algorithm, nonce, signedAt, requestDigest, signature }

def DecisionSignatureRecord.ofJson (v : Json) : Option DecisionSignatureRecord := do
  let ms ← (Shape.mk ["payload_version", "key_id", "algorithm", "nonce", "signed_at",
    "request_digest", "signing_payload", "signature", "verified", "public_key"] false).members v
  let payloadVersion ← withDefault none "payload_version" (nullable string) ms
  let keyId ← required "key_id" string ms
  let algorithm ← required "algorithm" string ms
  let nonce ← required "nonce" string ms
  let signedAt ← required "signed_at" string ms
  let requestDigest ← required "request_digest" string ms
  let signingPayload ← required "signing_payload" string ms
  let signature ← required "signature" string ms
  let verified ← required "verified" boolean ms
  let publicKey ← withDefault none "public_key" (nullable string) ms
  some { payloadVersion, keyId, algorithm, nonce, signedAt, requestDigest, signingPayload,
         signature, verified, publicKey }

def DecisionSignature.toJson (s : DecisionSignature) : Json :=
  .obj (JsonOf.skipNone "payload_version" .str s.payloadVersion ++
    [("key_id", .str s.keyId), ("algorithm", .str s.algorithm), ("nonce", .str s.nonce),
      ("signed_at", .str s.signedAt), ("request_digest", .str s.requestDigest),
      ("signature", .str s.signature)])

def SubmitDecisionRequest.shape : Shape where
  fields := ["answer_value", "text", "signature"]
  strict := true

def SubmitDecisionRequest.ofMembers (ms : Members) : Option SubmitDecisionRequest := do
  let answerValue ← withDefault none "answer_value" (present (AnswerValue.ofJson false)) ms
  let text ← withDefault none "text" (nullable string) ms
  let signature ← withDefault none "signature" (nullable DecisionSignature.ofJson) ms
  some { answerValue, text, signature }

def SubmitDecisionRequest.ofJson (v : Json) : Option SubmitDecisionRequest :=
  (SubmitDecisionRequest.shape.members v).bind SubmitDecisionRequest.ofMembers

def SubmitDecisionRequest.toJson (s : SubmitDecisionRequest) : Json :=
  .obj (JsonOf.skipNone "answer_value" AnswerValue.toJson s.answerValue ++
    [("text", JsonOf.optStr s.text), ("signature", optJson DecisionSignature.toJson s.signature)])

section

variable (times : String → Option DateTime)

def instant (v : Json) : Option DateTime := (string v).bind times

def Decision.ofMembers (ms : Members) : Option Decision := do
  let answerValue ← withDefault none "answer_value" (nullable (AnswerValue.ofJson false)) ms
  let requestId ← required "request_id" string ms
  let optionId ← required "option_id" string ms
  let optionKind ← required "option_kind" (unitCase OptionKind.named) ms
  let optionLabel ← required "option_label" string ms
  let text ← withDefault none "text" (nullable string) ms
  let actorUserId ← withDefault none "actor_user_id" (nullable string) ms
  let actorDeviceId ← withDefault none "actor_device_id" (nullable string) ms
  let signature ← withDefault none "signature" (nullable DecisionSignatureRecord.ofJson) ms
  let resolvedAt ← required "resolved_at" (instant times) ms
  some { answerValue, requestId, optionId, optionKind, optionLabel, text, actorUserId,
         actorDeviceId, signature, resolvedAt }

def Decision.ofJson (v : Json) : Option Decision :=
  ((Shape.mk ["answer_value", "request_id", "option_id", "option_kind", "option_label", "text",
    "actor_user_id", "actor_device_id", "signature", "resolved_at"] false).members v).bind
    (Decision.ofMembers times)

def UserDecision.ofJson (v : Json) : Option UserDecision := do
  let ms ← (Shape.mk ["user_id", "decision"] false).members v
  let userId ← required "user_id" string ms
  let decision ← required "decision" (Decision.ofJson times) ms
  some { userId, decision }

/-! ## Requests -/

def RequestSigningContext.ofJson (v : Json) : Option RequestSigningContext := do
  let ms ← (Shape.mk ["version", "recipients_commitment", "request_digest"] false).members v
  let version ← required "version" string ms
  let recipientsCommitment ← required "recipients_commitment" string ms
  let requestDigest ← required "request_digest" string ms
  some { version, recipientsCommitment, requestDigest }

def Request.shape : Shape where
  fields := ["answer_field", "id", "request_id", "channel_id", "recipients",
    "decision_resolution", "title", "summary", "body_markdown", "fields", "links", "image_url",
    "notification", "dedupe_key", "expires_at", "status", "created_at", "updated_at",
    "resolved_at", "decision", "decisions", "callback_url", "options", "request_digest", "signing"]
  strict := false

def Request.ofMembers (ms : Members) : Option Request := do
  let answerField ← withDefault none "answer_field" (present AnswerField.ofJson) ms
  let id ← required "id" string ms
  let requestId ← required "request_id" string ms
  let channelId ← required "channel_id" string ms
  let recipients ← withDefault [] "recipients" (items string) ms
  let decisionResolution ← withDefault .shared "decision_resolution"
    (unitCase DecisionResolution.named) ms
  let title ← required "title" string ms
  let summary ← withDefault "" "summary" string ms
  let bodyMarkdown ← withDefault "" "body_markdown" string ms
  let fields ← withDefault [] "fields" (items CardField.ofJson) ms
  let links ← withDefault [] "links" (items CardLink.ofJson) ms
  let imageUrl ← withDefault none "image_url" (nullable string) ms
  let notification ← withDefault .none "notification" RequestNotification.ofJson ms
  let dedupeKey ← withDefault none "dedupe_key" (nullable string) ms
  let expiresAt ← withDefault none "expires_at" (nullable (instant times)) ms
  let status ← required "status" (unitCase RequestStatus.named) ms
  let createdAt ← required "created_at" (instant times) ms
  let updatedAt ← required "updated_at" (instant times) ms
  let resolvedAt ← withDefault none "resolved_at" (nullable (instant times)) ms
  let decision ← withDefault none "decision" (nullable (Decision.ofJson times)) ms
  let decisions ← withDefault [] "decisions" (items (UserDecision.ofJson times)) ms
  let callbackUrl ← withDefault none "callback_url" (nullable string) ms
  let options ← required "options" (items RequestOption.ofJson) ms
  let requestDigest ← withDefault none "request_digest" (nullable string) ms
  let signing ← withDefault none "signing" (nullable RequestSigningContext.ofJson) ms
  some
    { answerField, id, requestId, channelId, recipients, decisionResolution, title, summary
      bodyMarkdown, fields, links, imageUrl, notification, dedupeKey, expiresAt, status, createdAt
      updatedAt, resolvedAt, decision, decisions, callbackUrl, options, requestDigest, signing }

def Request.ofJson (v : Json) : Option Request :=
  (Request.shape.members v).bind (Request.ofMembers times)

end

/-! ## The parts read back -/

@[simp] theorem AnswerValue.ofJson_toJson (buffered : Bool) (v : AnswerValue) :
    AnswerValue.ofJson buffered v.toJson = some v := by
  cases v <;> rfl

@[simp] theorem AnswerChoice.ofJson_toJson (c : AnswerChoice) :
    AnswerChoice.ofJson c.toJson = some c := rfl

@[simp] theorem CardField.ofJson_toJson (f : CardField) : CardField.ofJson f.toJson = some f := by
  obtain ⟨label, value, style⟩ := f
  cases style <;> rfl

@[simp] theorem CardLink.ofJson_toJson (l : CardLink) : CardLink.ofJson l.toJson = some l := rfl

@[simp] theorem unitCase_optionKind (k : OptionKind) :
    unitCase OptionKind.named (.str k.asStr) = some k := by
  cases k <;> rfl

@[simp] theorem unitCase_status (status : RequestStatus) :
    unitCase RequestStatus.named (.str status.asStr) = some status := by
  cases status <;> rfl

@[simp] theorem unitCase_resolution (resolution : DecisionResolution) :
    unitCase DecisionResolution.named (.str resolution.asStr) = some resolution := by
  cases resolution <;> rfl

@[simp] theorem nullable_optStr (o : Option String) :
    nullable string (JsonOf.optStr o) = some o := by
  cases o <;> rfl

theorem items_str (texts : List String) : items string (.arr (texts.map .str)) = some texts :=
  items_map fun _ _ => rfl

theorem AnswerField.ofJson_toJson (f : AnswerField) : AnswerField.ofJson f.toJson = some f := by
  cases f with
  | choice label choices default =>
    have hchoices : items AnswerChoice.ofJson (.arr (choices.map AnswerChoice.toJson)) =
        some choices := items_map fun c _ => c.ofJson_toJson
    show (items AnswerChoice.ofJson (.arr (choices.map AnswerChoice.toJson))).bind (fun choices =>
      (AnswerValue.ofJson true default.toJson).bind fun default =>
        some (AnswerField.choice label choices default)) = _
    rw [hchoices, Option.bind_some, AnswerValue.ofJson_toJson, Option.bind_some]
  | number label default => cases default <;> rfl
  | date label default => cases default <;> rfl
  | dateTime label default => cases default <;> rfl

theorem RequestOption.ofJson_toJson (o : RequestOption) :
    RequestOption.ofJson o.toJson = some o := by
  obtain ⟨id, label, kind, style, requiresText, textPlaceholder, destructive, foreground⟩ := o
  show (unitCase OptionKind.named (.str kind.asStr)).bind (fun kind =>
    (nullable string (JsonOf.optStr textPlaceholder)).bind fun textPlaceholder => some
      (RequestOption.mk id label kind style requiresText textPlaceholder destructive foreground)) = _
  rw [unitCase_optionKind, Option.bind_some, nullable_optStr, Option.bind_some]

theorem RequestNotification.ofJson_toJson (n : RequestNotification) :
    RequestNotification.ofJson n.toJson = some n := by
  obtain ⟨redact, title, body⟩ := n
  cases title <;> cases body <;> rfl

theorem DecisionSignatureRecord.ofJson_toJson (s : DecisionSignatureRecord) :
    DecisionSignatureRecord.ofJson s.toJson = some s := by
  obtain ⟨payloadVersion, keyId, algorithm, nonce, signedAt, requestDigest, signingPayload,
    signature, verified, publicKey⟩ := s
  cases payloadVersion <;> cases publicKey <;> rfl

theorem DecisionSignature.ofJson_toJson (s : DecisionSignature) :
    DecisionSignature.ofJson s.toJson = some s := by
  obtain ⟨payloadVersion⟩ := s
  cases payloadVersion <;> rfl

theorem RequestSigningContext.ofJson_toJson (c : RequestSigningContext) :
    RequestSigningContext.ofJson c.toJson = some c := rfl

/-! ## Dates -/

/-- The reader of timestamps reads what their writer writes, while the year has four digits. -/
def ReadsTimes (times : String → Option DateTime) : Prop :=
  ∀ t : DateTime, t.FourDigitYear → times t.toRfc3339AutoSi = some t

theorem readsTimes_rfc3339 : ReadsTimes DateTime.parseFromRfc3339 :=
  DateTime.parse_toRfc3339AutoSi

/-- Every time of the request has a year of four digits. -/
structure Request.Dated (r : Request) : Prop where
  createdAt : r.createdAt.FourDigitYear
  updatedAt : r.updatedAt.FourDigitYear
  expiresAt : ∀ t ∈ r.expiresAt, t.FourDigitYear
  resolvedAt : ∀ t ∈ r.resolvedAt, t.FourDigitYear
  decision : ∀ d ∈ r.decision, d.resolvedAt.FourDigitYear
  decisions : ∀ d ∈ r.decisions, d.decision.resolvedAt.FourDigitYear

section

variable {times : String → Option DateTime}

theorem nullable_optTime (htimes : ReadsTimes times) {o : Option DateTime}
    (ho : ∀ t ∈ o, t.FourDigitYear) : nullable (instant times) (JsonOf.optTime o) = some o := by
  cases o with
  | none => rfl
  | some t =>
    show (times t.toRfc3339AutoSi).map some = some (some t)
    rw [htimes t (ho t rfl), Option.map_some]

/-- What stands under each key of a decision. -/
structure Decision.Shown (times : String → Option DateTime) (ms : Members) (d : Decision) :
    Prop where
  answerValue :
    withDefault none "answer_value" (nullable (AnswerValue.ofJson false)) ms = some d.answerValue
  requestId : required "request_id" string ms = some d.requestId
  optionId : required "option_id" string ms = some d.optionId
  optionKind : required "option_kind" (unitCase OptionKind.named) ms = some d.optionKind
  optionLabel : required "option_label" string ms = some d.optionLabel
  text : withDefault none "text" (nullable string) ms = some d.text
  actorUserId : withDefault none "actor_user_id" (nullable string) ms = some d.actorUserId
  actorDeviceId : withDefault none "actor_device_id" (nullable string) ms = some d.actorDeviceId
  signature :
    withDefault none "signature" (nullable DecisionSignatureRecord.ofJson) ms = some d.signature
  resolvedAt : required "resolved_at" (instant times) ms = some d.resolvedAt

theorem Decision.Shown.ofMembers {ms : Members} {d : Decision} (h : d.Shown times ms) :
    Decision.ofMembers times ms = some d := by
  unfold Decision.ofMembers
  rw [h.answerValue, h.requestId, h.optionId, h.optionKind, h.optionLabel, h.text, h.actorUserId,
    h.actorDeviceId, h.signature, h.resolvedAt]
  rfl

theorem Decision.ofJson_toJson (htimes : ReadsTimes times) {d : Decision}
    (hd : d.resolvedAt.FourDigitYear) : Decision.ofJson times d.toJson = some d := by
  have htime : instant times (.str d.resolvedAt.toRfc3339AutoSi) = some d.resolvedAt :=
    htimes d.resolvedAt hd
  have hsignature : nullable DecisionSignatureRecord.ofJson
      (optJson DecisionSignatureRecord.toJson d.signature) = some d.signature := by
    cases d.signature with
    | none => rfl
    | some s => exact congrArg (Option.map some) s.ofJson_toJson
  have hshown : d.Shown times (objectMembers d.toJson) := by
    obtain ⟨answerValue, requestId, optionId, optionKind, optionLabel, text, actorUserId,
      actorDeviceId, signature, resolvedAt⟩ := d
    have hkind := unitCase_optionKind optionKind
    cases answerValue with
    | none =>
      exact ⟨rfl, rfl, rfl, hkind, rfl, nullable_optStr text, nullable_optStr actorUserId,
        nullable_optStr actorDeviceId, hsignature, htime⟩
    | some answer =>
      have hanswer := congrArg (Option.map some) (answer.ofJson_toJson false)
      have hnull : nullable (AnswerValue.ofJson false) answer.toJson = some (some answer) := by
        cases answer <;> exact hanswer
      exact ⟨hnull, rfl, rfl, hkind, rfl, nullable_optStr text, nullable_optStr actorUserId,
        nullable_optStr actorDeviceId, hsignature, htime⟩
  rw [← hshown.ofMembers]
  obtain ⟨answerValue⟩ := d
  cases answerValue <;> rfl

theorem UserDecision.ofJson_toJson (htimes : ReadsTimes times) {d : UserDecision}
    (hd : d.decision.resolvedAt.FourDigitYear) : UserDecision.ofJson times d.toJson = some d := by
  show (Decision.ofJson times d.decision.toJson).bind (fun decision =>
    some (UserDecision.mk d.userId decision)) = _
  rw [Decision.ofJson_toJson htimes hd, Option.bind_some]

end

/-! ## A request reads back -/

/-- The members a request is written as. -/
def Request.members (r : Request) : Members := objectMembers r.toJson

/-- The defaults of the members that may be left out. -/
def Request.defaults : Members :=
  [("recipients", .arr []), ("decision_resolution", .str "shared"), ("summary", .str ""),
    ("body_markdown", .str ""), ("fields", .arr []), ("links", .arr []), ("image_url", .null),
    ("notification", RequestNotification.none.toJson), ("dedupe_key", .null),
    ("expires_at", .null), ("resolved_at", .null), ("decision", .null), ("decisions", .arr []),
    ("callback_url", .null), ("request_digest", .null)]

section

variable {times : String → Option DateTime}

/-- What stands under each key of a request. -/
structure Request.Shown (times : String → Option DateTime) (ms : Members) (r : Request) :
    Prop where
  answerField : withDefault none "answer_field" (present AnswerField.ofJson) ms = some r.answerField
  id : required "id" string ms = some r.id
  requestId : required "request_id" string ms = some r.requestId
  channelId : required "channel_id" string ms = some r.channelId
  recipients : withDefault [] "recipients" (items string) ms = some r.recipients
  decisionResolution : withDefault .shared "decision_resolution"
    (unitCase DecisionResolution.named) ms = some r.decisionResolution
  title : required "title" string ms = some r.title
  summary : withDefault "" "summary" string ms = some r.summary
  bodyMarkdown : withDefault "" "body_markdown" string ms = some r.bodyMarkdown
  fields : withDefault [] "fields" (items CardField.ofJson) ms = some r.fields
  links : withDefault [] "links" (items CardLink.ofJson) ms = some r.links
  imageUrl : withDefault none "image_url" (nullable string) ms = some r.imageUrl
  notification : withDefault .none "notification" RequestNotification.ofJson ms =
    some r.notification
  dedupeKey : withDefault none "dedupe_key" (nullable string) ms = some r.dedupeKey
  expiresAt : withDefault none "expires_at" (nullable (instant times)) ms = some r.expiresAt
  status : required "status" (unitCase RequestStatus.named) ms = some r.status
  createdAt : required "created_at" (instant times) ms = some r.createdAt
  updatedAt : required "updated_at" (instant times) ms = some r.updatedAt
  resolvedAt : withDefault none "resolved_at" (nullable (instant times)) ms = some r.resolvedAt
  decision : withDefault none "decision" (nullable (Decision.ofJson times)) ms = some r.decision
  decisions : withDefault [] "decisions" (items (UserDecision.ofJson times)) ms = some r.decisions
  callbackUrl : withDefault none "callback_url" (nullable string) ms = some r.callbackUrl
  options : required "options" (items RequestOption.ofJson) ms = some r.options
  requestDigest : withDefault none "request_digest" (nullable string) ms = some r.requestDigest
  signing : withDefault none "signing" (nullable RequestSigningContext.ofJson) ms = some r.signing

theorem Request.Shown.ofMembers {ms : Members} {r : Request} (h : r.Shown times ms) :
    Request.ofMembers times ms = some r := by
  unfold Request.ofMembers
  rw [h.answerField, h.id, h.requestId, h.channelId, h.recipients, h.decisionResolution, h.title,
    h.summary, h.bodyMarkdown, h.fields, h.links, h.imageUrl, h.notification, h.dedupeKey,
    h.expiresAt, h.status, h.createdAt, h.updatedAt, h.resolvedAt, h.decision, h.decisions,
    h.callbackUrl, h.options, h.requestDigest, h.signing]
  rfl

/-- A request is shown by whatever gives its fields the same, or leaves out a default. -/
theorem Request.Shown.presents {ms ns : Members} {r : Request} (h : r.Shown times ms)
    (hp : Request.shape.Presents Request.defaults ms ns) : r.Shown times ns where
  answerField := hp.optional h.answerField (by decide) rfl
  id := hp.required h.id (by decide) rfl
  requestId := hp.required h.requestId (by decide) rfl
  channelId := hp.required h.channelId (by decide) rfl
  recipients := hp.withDefault h.recipients (by decide) rfl rfl
  decisionResolution := hp.withDefault h.decisionResolution (by decide) rfl rfl
  title := hp.required h.title (by decide) rfl
  summary := hp.withDefault h.summary (by decide) rfl rfl
  bodyMarkdown := hp.withDefault h.bodyMarkdown (by decide) rfl rfl
  fields := hp.withDefault h.fields (by decide) rfl rfl
  links := hp.withDefault h.links (by decide) rfl rfl
  imageUrl := hp.withDefault h.imageUrl (by decide) rfl rfl
  notification := hp.withDefault h.notification (by decide) rfl rfl
  dedupeKey := hp.withDefault h.dedupeKey (by decide) rfl rfl
  expiresAt := hp.withDefault h.expiresAt (by decide) rfl rfl
  status := hp.required h.status (by decide) rfl
  createdAt := hp.required h.createdAt (by decide) rfl
  updatedAt := hp.required h.updatedAt (by decide) rfl
  resolvedAt := hp.withDefault h.resolvedAt (by decide) rfl rfl
  decision := hp.withDefault h.decision (by decide) rfl rfl
  decisions := hp.withDefault h.decisions (by decide) rfl rfl
  callbackUrl := hp.withDefault h.callbackUrl (by decide) rfl rfl
  options := hp.required h.options (by decide) rfl
  requestDigest := hp.withDefault h.requestDigest (by decide) rfl rfl
  signing := hp.optional h.signing (by decide) rfl

theorem Request.shown_members (htimes : ReadsTimes times) {r : Request} (hr : r.Dated) :
    r.Shown times r.members := by
  have hrecipients := items_str r.recipients
  have hfields : items CardField.ofJson (.arr (r.fields.map CardField.toJson)) = some r.fields :=
    items_map fun f _ => f.ofJson_toJson
  have hlinks : items CardLink.ofJson (.arr (r.links.map CardLink.toJson)) = some r.links :=
    items_map fun l _ => l.ofJson_toJson
  have hoptions : items RequestOption.ofJson (.arr (r.options.map RequestOption.toJson)) =
      some r.options := items_map fun o _ => o.ofJson_toJson
  have hcreated : instant times (.str r.createdAt.toRfc3339AutoSi) = some r.createdAt :=
    htimes _ (hr.createdAt)
  have hupdated : instant times (.str r.updatedAt.toRfc3339AutoSi) = some r.updatedAt :=
    htimes _ hr.updatedAt
  have hexpires := nullable_optTime htimes hr.expiresAt
  have hresolved := nullable_optTime htimes hr.resolvedAt
  have hdecision : nullable (Decision.ofJson times) (optJson Decision.toJson r.decision) =
      some r.decision := by
    have hdated := hr.decision
    cases hd : r.decision with
    | none => rfl
    | some d => exact congrArg (Option.map some) (Decision.ofJson_toJson htimes (hdated d hd))
  have hdecisions : items (UserDecision.ofJson times) (.arr (r.decisions.map UserDecision.toJson)) =
      some r.decisions := items_map fun d hd => UserDecision.ofJson_toJson htimes (hr.decisions d hd)
  have hnotification := r.notification.ofJson_toJson
  have hstatus := unitCase_status r.status
  have hresolution := unitCase_resolution r.decisionResolution
  obtain ⟨answerField, id, requestId, channelId, recipients, decisionResolution, title, summary,
    bodyMarkdown, fields, links, imageUrl, notification, dedupeKey, expiresAt, status, createdAt,
    updatedAt, resolvedAt, decision, decisions, callbackUrl, options, requestDigest, signing⟩ := r
  cases answerField with
  | none =>
    cases signing <;>
      exact ⟨rfl, rfl, rfl, rfl, hrecipients, hresolution, rfl, rfl, rfl, hfields, hlinks,
        nullable_optStr imageUrl, hnotification, nullable_optStr dedupeKey, hexpires, hstatus,
        hcreated, hupdated, hresolved, hdecision, hdecisions, nullable_optStr callbackUrl, hoptions,
        nullable_optStr requestDigest, rfl⟩
  | some field =>
    have hfield : present AnswerField.ofJson field.toJson = some (some field) :=
      congrArg (Option.map some) field.ofJson_toJson
    cases signing <;>
      exact ⟨hfield, rfl, rfl, rfl, hrecipients, hresolution, rfl, rfl, rfl, hfields, hlinks,
        nullable_optStr imageUrl, hnotification, nullable_optStr dedupeKey, hexpires, hstatus,
        hcreated, hupdated, hresolved, hdecision, hdecisions, nullable_optStr callbackUrl, hoptions,
        nullable_optStr requestDigest, rfl⟩

theorem Request.admits_members (r : Request) : Request.shape.Admits r.members := by
  obtain ⟨answerField, id, requestId, channelId, recipients, decisionResolution, title, summary,
    bodyMarkdown, fields, links, imageUrl, notification, dedupeKey, expiresAt, status, createdAt,
    updatedAt, resolvedAt, decision, decisions, callbackUrl, options, requestDigest, signing⟩ := r
  cases answerField <;> cases signing <;> exact of_decide_eq_true rfl

/-- A request reads back from whatever presents it. -/
theorem Request.ofJson_of_presents (htimes : ReadsTimes times) {r : Request} (hr : r.Dated)
    {ns : Members} (hp : Request.shape.Presents Request.defaults r.members ns) :
    Request.ofJson times (.obj ns) = some r := by
  rw [Request.ofJson, hp.members_eq]
  exact ((Request.shown_members htimes hr).presents hp).ofMembers

theorem Request.ofJson_toJson (htimes : ReadsTimes times) {r : Request} (hr : r.Dated) :
    Request.ofJson times r.toJson = some r :=
  Request.ofJson_of_presents htimes hr (Shape.presents_self r.admits_members)

end

/-! ## A submission reads back -/

/-- The members a submission is written as. -/
def SubmitDecisionRequest.members (s : SubmitDecisionRequest) : Members := objectMembers s.toJson

def SubmitDecisionRequest.defaults : Members := [("text", .null), ("signature", .null)]

/-- What stands under each key of a submission. -/
structure SubmitDecisionRequest.Shown (ms : Members) (s : SubmitDecisionRequest) : Prop where
  answerValue :
    withDefault none "answer_value" (present (AnswerValue.ofJson false)) ms = some s.answerValue
  text : withDefault none "text" (nullable string) ms = some s.text
  signature :
    withDefault none "signature" (nullable DecisionSignature.ofJson) ms = some s.signature

theorem SubmitDecisionRequest.shown_members (s : SubmitDecisionRequest) : s.Shown s.members := by
  have hsignature : nullable DecisionSignature.ofJson
      (optJson DecisionSignature.toJson s.signature) = some s.signature := by
    cases s.signature with
    | none => rfl
    | some signature => exact congrArg (Option.map some) signature.ofJson_toJson
  obtain ⟨answerValue, text, signature⟩ := s
  cases answerValue with
  | none => exact ⟨rfl, nullable_optStr text, hsignature⟩
  | some answer =>
    have hanswer := congrArg (Option.map some) (answer.ofJson_toJson false)
    exact ⟨hanswer, nullable_optStr text, hsignature⟩

/-- A submission reads back from whatever presents it. -/
theorem SubmitDecisionRequest.ofJson_of_presents {s : SubmitDecisionRequest} {ns : Members}
    (hp : SubmitDecisionRequest.shape.Presents SubmitDecisionRequest.defaults s.members ns) :
    SubmitDecisionRequest.ofJson (.obj ns) = some s := by
  have h := s.shown_members
  rw [SubmitDecisionRequest.ofJson, hp.members_eq]
  unfold SubmitDecisionRequest.ofMembers
  rw [Option.bind_some, hp.optional h.answerValue (by decide) rfl,
    hp.withDefault h.text (by decide) rfl rfl, hp.withDefault h.signature (by decide) rfl rfl]
  rfl

theorem SubmitDecisionRequest.admits_members (s : SubmitDecisionRequest) :
    SubmitDecisionRequest.shape.Admits s.members := by
  obtain ⟨answerValue, text, signature⟩ := s
  cases answerValue <;> exact of_decide_eq_true rfl

/-! ## As texts -/

theorem floatFreeMembers_append {ms ns : Members} :
    Json.FloatFreeMembers (ms ++ ns) ↔ Json.FloatFreeMembers ms ∧ Json.FloatFreeMembers ns := by
  rw [Json.floatFreeMembers_iff, Json.floatFreeMembers_iff, Json.floatFreeMembers_iff]
  exact List.forall_mem_append

theorem floatFreeMembers_skipNone {α : Type} {write : α → Json} (h : ∀ a, (write a).FloatFree)
    (k : String) (o : Option α) : Json.FloatFreeMembers (JsonOf.skipNone k write o) := by
  cases o with
  | none => trivial
  | some a => exact ⟨h a, trivial⟩

theorem floatFree_items {α : Type} {write : α → Json} (h : ∀ a, (write a).FloatFree)
    (as : List α) : Json.FloatFree (.arr (as.map write)) :=
  (Json.floatFreeItems_iff _).mpr (List.forall_mem_map.mpr fun a _ => h a)

theorem floatFree_optJson {α : Type} {write : α → Json} (h : ∀ a, (write a).FloatFree)
    (o : Option α) : (optJson write o).FloatFree := by
  cases o with
  | none => trivial
  | some a => exact h a

theorem floatFree_optTime (o : Option DateTime) : (JsonOf.optTime o).FloatFree := by
  cases o <;> trivial

theorem DecisionSignature.floatFree (s : DecisionSignature) : s.toJson.FloatFree :=
  floatFreeMembers_append.mpr ⟨floatFreeMembers_skipNone (fun s => (plain_str s).1) _ _,
    trivial, trivial, trivial, trivial, trivial, trivial, trivial⟩

theorem DecisionSignatureRecord.floatFree (s : DecisionSignatureRecord) : s.toJson.FloatFree :=
  floatFreeMembers_append.mpr ⟨floatFreeMembers_append.mpr
    ⟨floatFreeMembers_skipNone (fun s => (plain_str s).1) _ _, trivial, trivial, trivial, trivial, trivial,
      trivial, trivial, trivial, trivial⟩,
    floatFreeMembers_skipNone (fun s => (plain_str s).1) _ _⟩

theorem Decision.floatFree (d : Decision) : d.toJson.FloatFree :=
  floatFreeMembers_append.mpr ⟨floatFreeMembers_skipNone (fun v => v.plain_toJson.1) _ _,
    trivial, trivial, trivial, trivial, (plain_optStr d.text).1, (plain_optStr d.actorUserId).1,
    (plain_optStr d.actorDeviceId).1, floatFree_optJson DecisionSignatureRecord.floatFree _,
    trivial, trivial⟩

theorem UserDecision.floatFree (d : UserDecision) : d.toJson.FloatFree :=
  ⟨trivial, d.decision.floatFree, trivial⟩

theorem RequestSigningContext.floatFree (c : RequestSigningContext) : c.toJson.FloatFree :=
  ⟨trivial, trivial, trivial, trivial⟩

theorem Request.floatFree (r : Request) : r.toJson.FloatFree := by
  refine floatFreeMembers_append.mpr ⟨floatFreeMembers_append.mpr
    ⟨floatFreeMembers_skipNone (fun f => f.plain_toJson.1) _ _, ?_⟩,
    floatFreeMembers_skipNone RequestSigningContext.floatFree _ _⟩
  exact ⟨trivial, trivial, trivial, floatFree_items (fun s => (plain_str s).1) _, trivial, trivial, trivial,
    trivial, floatFree_items (fun f => f.plain_toJson.1) _,
    floatFree_items (fun l => l.plain_toJson.1) _, (plain_optStr r.imageUrl).1,
    r.notification.plain_toJson.1, (plain_optStr r.dedupeKey).1, floatFree_optTime r.expiresAt,
    trivial, trivial, trivial, floatFree_optTime r.resolvedAt, floatFree_optJson Decision.floatFree _,
    floatFree_items UserDecision.floatFree _, (plain_optStr r.callbackUrl).1,
    floatFree_items (fun o => o.plain_toJson.1) _, (plain_optStr r.requestDigest).1, trivial⟩

theorem SubmitDecisionRequest.floatFree (s : SubmitDecisionRequest) : s.toJson.FloatFree :=
  floatFreeMembers_append.mpr ⟨floatFreeMembers_skipNone (fun v => v.plain_toJson.1) _ _,
    (plain_optStr s.text).1, floatFree_optJson DecisionSignature.floatFree _, trivial⟩

theorem Request.parse_text {times : String → Option DateTime} (htimes : ReadsTimes times)
    {r : Request} (hr : r.Dated) :
    (Json.parse r.toJson.text).bind (Request.ofJson times) = some r := by
  rw [Json.parse_text _ r.floatFree]
  exact Request.ofJson_toJson htimes hr

theorem SubmitDecisionRequest.parse_text (s : SubmitDecisionRequest) :
    (Json.parse s.toJson.text).bind SubmitDecisionRequest.ofJson = some s := by
  rw [Json.parse_text _ s.floatFree]
  exact SubmitDecisionRequest.ofJson_of_presents (Shape.presents_self s.admits_members)

/-! ## The round trip -/

/-- What the readers of the wire make of what was written. -/
structure WireRoundTrip (times : String → Option DateTime) : Prop where
  request : ∀ r : Request, r.Dated →
    (Json.parse r.toJson.text).bind (Request.ofJson times) = some r
  /-- Defaults left out, in any order and among unknown members. -/
  presented : ∀ r : Request, r.Dated → ∀ ns,
    Request.shape.Presents Request.defaults r.members ns → Request.ofJson times (.obj ns) = some r
  /-- A newer server writes members that an older client does not know. -/
  extended : ∀ r : Request, r.Dated → ∀ ns,
    (r.members.filter fun m => m.1 ∈ Request.shape.fields).Perm
        (ns.filter fun n => n.1 ∈ Request.shape.fields) → Request.ofJson times (.obj ns) = some r
  submission : ∀ s : SubmitDecisionRequest,
    (Json.parse s.toJson.text).bind SubmitDecisionRequest.ofJson = some s
  submissionPresented : ∀ (s : SubmitDecisionRequest) (ns : Members),
    SubmitDecisionRequest.shape.Presents SubmitDecisionRequest.defaults s.members ns →
      SubmitDecisionRequest.ofJson (.obj ns) = some s
  /-- A member that the server does not know spoils a submission. -/
  strict : ∀ (ms : Members), ∀ m ∈ ms, m.1 ∉ SubmitDecisionRequest.shape.fields →
    SubmitDecisionRequest.ofJson (.obj ms) = none

/-- Requests and submissions read back as they were written. -/
theorem wire_round_trip {times : String → Option DateTime} (htimes : ReadsTimes times) :
    WireRoundTrip times where
  request := fun r hr => r.parse_text htimes hr
  presented := fun r hr ns hp => Request.ofJson_of_presents htimes hr hp
  extended := by
    intro r hr ns hperm
    exact Request.ofJson_of_presents htimes hr (Shape.presents_of_perm rfl r.admits_members hperm)
  submission := SubmitDecisionRequest.parse_text
  submissionPresented := fun s ns hp => SubmitDecisionRequest.ofJson_of_presents hp
  strict := by
    intro ms m hm hunknown
    rw [SubmitDecisionRequest.ofJson, members_eq_none rfl hm hunknown]
    rfl

theorem wire_round_trip_rfc3339 : WireRoundTrip DateTime.parseFromRfc3339 :=
  wire_round_trip readsTimes_rfc3339

end Nod.Proto
