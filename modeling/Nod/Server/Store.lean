import Nod.Lib.Calendar
import Nod.Lib.Table
import Nod.Lib.Txn
import Nod.Proto.ValueSigning

/-
  The server's database (`schema.sql`), its model of a request (`models/request.rs`,
  `models/device.rs`) and its errors (`error.rs`). A table keeps its primary key by construction;
  a JSON column holds the value it is written from, a time column its text. Foreign keys and the
  other constraints are part of the statements that insert.
-/

namespace Nod.Server

open Lib Nod.Proto

/-! ## Errors -/

inductive ApiError where
  | clientUpdateRequired
  | badRequest (message : String)
  | unauthorized
  | forbidden
  | notFound
  | conflict (message : String)
  | internal (message : String)
  deriving DecidableEq

/-- What a failing statement turns into. -/
def databaseError : ApiError := .internal "database error"

/-! ## Rows -/

structure ChannelRow where
  id : String
  name : String
  createdAt : String
  deriving DecidableEq

/-- Users are deleted by a mark. -/
structure UserRow where
  id : String
  name : String
  createdAt : String
  updatedAt : String
  deletedAt : Option String
  deriving DecidableEq

/-- Devices are revoked by a mark. `attestationVerifiedAt` is the time of the attestation that the
    lists of devices join to the row. -/
structure DeviceRow where
  id : String
  userId : String
  nativeAppId : Option String
  tokenHash : String
  pushProvider : Option String
  pushToken : Option String
  signingKeyId : Option String
  signingKeyAlgorithm : Option String
  signingPublicKey : Option String
  attestationVerifiedAt : Option String
  lastSeenAt : String
  createdAt : String
  revokedAt : Option String
  deriving DecidableEq

structure IssuerTokenRow where
  id : String
  name : String
  tokenHash : String
  scopes : List String
  revokedAt : Option String
  deriving DecidableEq

structure EnrollmentCodeRow where
  codeHash : String
  userId : String
  expiresAt : String
  consumedAt : Option String
  deriving DecidableEq

structure SubscriptionRow where
  userId : String
  channelId : String
  subscribed : Bool
  deriving DecidableEq

structure ClearRow where
  userId : String
  channelId : String
  clearedAt : String
  deriving DecidableEq

structure RequestRow where
  id : String
  channelId : String
  title : String
  summary : String
  bodyMarkdown : String
  fields : List CardField
  links : List CardLink
  imageUrl : Option String
  notification : RequestNotification
  dedupeKey : Option String
  expiresAt : Option String
  status : RequestStatus
  createdAt : String
  updatedAt : String
  resolvedAt : Option String
  decision : Option Decision
  callbackUrl : Option String
  decisionResolution : DecisionResolution
  recipientSalt : String
  explicitRecipients : Bool
  revision : Nat
  createdByIssuerTokenId : Option String
  answerField : Option AnswerField
  deriving DecidableEq

structure OptionRow where
  requestId : String
  option : RequestOption
  deriving DecidableEq

structure RecipientRow where
  requestId : String
  userId : String
  deriving DecidableEq

structure UserDecisionRow where
  requestId : String
  userId : String
  decision : Decision
  resolvedAt : String
  deriving DecidableEq

structure NonceRow where
  deviceId : String
  keyId : String
  nonce : String
  usedAt : String
  deriving DecidableEq

/-- Where an integration's request came from. -/
structure Origin where
  session : String
  directory : String
  reference : Option String
  deriving DecidableEq

structure OriginRow where
  requestId : String
  origin : Origin
  deriving DecidableEq

structure IdempotencyRow where
  scope : String
  channelId : String
  key : String
  fingerprint : String
  requestId : String
  deriving DecidableEq

structure PushDeliveryRow where
  requestId : String
  deviceId : String
  status : String
  attempts : Nat
  leaseUntil : Option Int
  claimGeneration : Nat
  updatedAt : String
  error : Option String
  deriving DecidableEq

/-- The public part of an event. -/
structure EventEnvelope where
  id : String
  source : String
  kind : String
  time : String
  requestId : String
  revision : Nat
  aggregateStatus : RequestStatus
  decisionResolution : DecisionResolution
  decisionId : Option String
  deriving DecidableEq

/-- The private part of an event: the exact accepted decision. -/
structure EventDetail where
  envelope : EventEnvelope
  channelId : String
  createdByIssuerTokenId : Option String
  origin : Option Origin
  decision : Option Decision
  deriving DecidableEq

structure EventRow where
  seq : Nat
  eventId : String
  requestId : String
  channelId : String
  revision : Nat
  kind : String
  occurredAt : String
  subject : String
  envelope : EventEnvelope
  detail : EventDetail
  publishedAt : Option String
  streamSeq : Option Int
  attempts : Nat
  nextAttemptAt : String
  leaseToken : Option String
  leaseUntil : Option String
  lastError : Option String
  deriving DecidableEq

structure CallbackPayload where
  requestId : String
  channelId : String
  status : RequestStatus
  decision : Option Decision
  decisions : List UserDecision
  decisionResolution : DecisionResolution
  deriving DecidableEq

structure CallbackRow where
  deliveryId : String
  eventId : String
  requestId : String
  requestRevision : Nat
  url : String
  payload : CallbackPayload
  state : String
  attempts : Nat
  nextAttemptAt : String
  leaseToken : Option String
  leaseUntil : Option String
  deliveredAt : Option String
  lastStatus : Option Int
  lastError : Option String
  updatedAt : String
  deriving DecidableEq

/-! ## Database -/

def OptionRow.key (r : OptionRow) : String × String := (r.requestId, r.option.id)
def RecipientRow.key (r : RecipientRow) : String × String := (r.requestId, r.userId)
def UserDecisionRow.key (r : UserDecisionRow) : String × String := (r.requestId, r.userId)
def NonceRow.key (r : NonceRow) : String × String × String := (r.deviceId, r.keyId, r.nonce)
def SubscriptionRow.key (r : SubscriptionRow) : String × String := (r.userId, r.channelId)
def ClearRow.key (r : ClearRow) : String × String := (r.userId, r.channelId)
def PushDeliveryRow.key (r : PushDeliveryRow) : String × String := (r.requestId, r.deviceId)

def IdempotencyRow.index (r : IdempotencyRow) : String × String × String :=
  (r.scope, r.channelId, r.key)

/-- `eventSeq` is the highest sequence number handed out. -/
structure Db where
  integrationMeta : Table (Prod.fst : String × String → String)
  channels : Table ChannelRow.id
  users : Table UserRow.id
  devices : Table DeviceRow.id
  issuerTokens : Table IssuerTokenRow.id
  enrollmentCodes : Table EnrollmentCodeRow.codeHash
  subscriptions : Table SubscriptionRow.key
  clears : Table ClearRow.key
  requests : Table RequestRow.id
  options : Table OptionRow.key
  recipients : Table RecipientRow.key
  userDecisions : Table UserDecisionRow.key
  nonces : Table NonceRow.key
  origins : Table OriginRow.requestId
  idempotency : Table IdempotencyRow.index
  pushDeliveries : Table PushDeliveryRow.key
  eventSeq : Nat
  events : Table EventRow.eventId
  callbacks : Table CallbackRow.deliveryId

def Db.empty : Db :=
  ⟨.empty, .empty, .empty, .empty, .empty, .empty, .empty, .empty, .empty, .empty, .empty, .empty,
    .empty, .empty, .empty, .empty, 0, .empty, .empty⟩

/-- A program against the database. -/
abbrev Sql (α : Type) := Prog Db ApiError α

/-! ## Outside inputs -/

/-- The hyphenated text of a UUID. -/
def isUuid (s : String) : Bool :=
  s.toList.length == 36 && s.toList.zipIdx.all fun (c, i) =>
    if i ∈ [8, 13, 18, 23] then c == '-' else Text.isLowerHex c

/-- What one call takes from outside: clock readings, new ids and tokens in the order they are
    asked for, each request's random salt, and the order in which an `UPDATE … RETURNING` lists its rows. -/
structure Env where
  now : Nat → DateTime
  newId : Nat → String
  newId_uuid : ∀ k, isUuid (newId k) = true
  token : String
  salt : String → String
  salt_ne : ∀ id, salt id ≠ ""
  arrange : List String → List String
  arrange_perm : ∀ ids, (arrange ids).Perm ids

def Env.nowString (env : Env) (k : Nat) : String := (env.now k).toRfc3339Millis

/-- The parsed parts of a URL that the server looks at. -/
structure Url where
  scheme : String
  host : Option String
  deriving DecidableEq

/-- The third-party functions of the server: those of the protocol, URL parsing, and the text of a
    time's parse error. -/
structure Packages extends Externals where
  parseUrl : String → Option Url
  timeError : String → String

/-! ## Server models -/

/-- A device as authentication loads it. -/
structure Device where
  id : String
  userId : String
  signingKeyId : Option String
  signingKeyAlgorithm : Option String
  signingPublicKey : Option String
  deriving DecidableEq

def DeviceRow.toDevice (r : DeviceRow) : Device :=
  { id := r.id, userId := r.userId, signingKeyId := r.signingKeyId
    signingKeyAlgorithm := r.signingKeyAlgorithm, signingPublicKey := r.signingPublicKey }

/-- The server's request. `privateRecipients` keeps the unsalted digest out of a device's view. -/
structure DecisionRequest where
  answerField : Option AnswerField
  id : String
  channelId : String
  recipients : List String
  decisionResolution : DecisionResolution
  title : String
  summary : String
  bodyMarkdown : String
  fields : List CardField
  links : List CardLink
  imageUrl : Option String
  notification : RequestNotification
  dedupeKey : Option String
  expiresAt : Option DateTime
  status : RequestStatus
  createdAt : DateTime
  updatedAt : DateTime
  resolvedAt : Option DateTime
  decision : Option Decision
  userDecisions : List UserDecision
  callbackUrl : Option String
  options : List RequestOption
  privateRecipients : Bool
  signing : Option RequestSigningContext
  deriving DecidableEq

namespace DecisionRequest

/-- The wire shape without a digest. -/
def toRequest (request : DecisionRequest) : Request :=
  { answerField := request.answerField, id := request.id, requestId := request.id
    channelId := request.channelId, recipients := request.recipients
    decisionResolution := request.decisionResolution, title := request.title
    summary := request.summary, bodyMarkdown := request.bodyMarkdown, fields := request.fields
    links := request.links, imageUrl := request.imageUrl, notification := request.notification
    dedupeKey := request.dedupeKey, expiresAt := request.expiresAt, status := request.status
    createdAt := request.createdAt, updatedAt := request.updatedAt
    resolvedAt := request.resolvedAt, decision := request.decision
    decisions := request.userDecisions, callbackUrl := request.callbackUrl
    options := request.options, requestDigest := none, signing := request.signing }

/-- An ordinary card shown in full carries its line snapshot digest. -/
def toWire (E : Externals) (request : DecisionRequest) : Request :=
  if request.privateRecipients = false ∧ request.answerField = none then
    { request.toRequest with
      requestDigest := some (requestDigestLegacyLineSnapshot E request.toRequest) }
  else request.toRequest

end DecisionRequest

/-- The issuer's response to a create. -/
structure CreatedDecisionRequest where
  requestId : String
  deduped : Bool
  request : DecisionRequest
  deriving DecidableEq

end Nod.Server
