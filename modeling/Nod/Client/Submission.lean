import Nod.Lib.Flow
import Nod.Client.Runtime
import Nod.Client.Signing

/-
  `submit_request_option` (`nod-client-core/src/runtime/workflows.rs`) with the HTTP requests it
  makes (`nod-client-core/src/api.rs`) and the signature (`nod-client-core/src/signing.rs`), against
  a server that answers anything and a sync task that changes the shared state at any time.
-/

namespace Nod.Client

open Lib Flow Nod.Proto

variable (E : Externals)

/-! ## HTTP -/

inductive HttpMethod
  | get
  | post
  deriving DecidableEq

/-- What an address names: an endpoint of the server, or where a response redirects to. -/
inductive Target
  | request (requestId : String)
  | option (requestId optionId : String)
  | location (url : String)

structure SubmitBody where
  answerValue : Option AnswerValue
  text : Option String
  signature : Option DecisionSignature

structure HttpRequest where
  method : HttpMethod
  target : Target
  body : Option SubmitBody

structure Response where
  status : Nat
  /-- The address in the `Location` header, if there is one that the HTTP client can go to. -/
  location : Option String
  /-- What the body decodes to. -/
  request : Option Request

/-- The parties outside: the server, or what answers in its place, and the holder of the key. -/
inductive Ask
  | http (request : HttpRequest)
  | sign (payload : String)

abbrev Reply : Ask → Type
  | .http _ => Option Response
  | .sign _ => Except String String

abbrev Activity (α : Type) : Type := Flow StateReducer Ask Reply α

/-- Go on with what a task returned, unless that is an error. -/
def andThen {α β : Type} (x : Activity (Except String α)) (f : α → Activity (Except String β)) :
    Activity (Except String β) :=
  x.bind fun
    | .error e => .done (.error e)
    | .ok a => f a

/-- How the HTTP client follows a response: 307 and 308 repeat the request as it was. -/
def redirected (m : HttpRequest) (r : Response) : Option HttpRequest :=
  r.location.bind fun url =>
    if r.status ∈ [301, 302, 303] then some { method := .get, target := .location url, body := none }
    else if r.status ∈ [307, 308] then some { m with target := .location url }
    else none

def followed (m : HttpRequest) (reply : Option Response) : Option HttpRequest :=
  reply.bind (redirected m)

namespace NodApi

/-- A request of the HTTP client, with its redirects. -/
def send : Nat → HttpRequest → Activity (Option Response)
  | 0, m => .ask (.http m) fun reply => .done (if (followed m reply).isSome then none else reply)
  | hops + 1, m => .ask (.http m) fun reply =>
    match followed m reply with
    | some next => send hops next
    | none => .done reply

def maxRedirects : Nat := 10

/-- `request`: so many more attempts at a GET that a gateway refuses. -/
def request : Nat → HttpRequest → Activity (Except String Request)
  | 0, m => (send maxRedirects m).bind fun
    | none => .done (.error "transport failed")
    | some r => .done (received r)
  | retries + 1, m => (send maxRedirects m).bind fun
    | none => .done (.error "transport failed")
    | some r =>
      if m.method = .get ∧ r.status ∈ [502, 503, 504] then request retries m
      else .done (received r)
where
  received (r : Response) : Except String Request :=
    if r.status < 200 ∨ 300 ≤ r.status then .error "server returned an unsuccessful response"
    else orElse "invalid JSON response" r.request

def maxRetries : Nat := 2

def getRequest (requestId : String) : Activity (Except String Request) :=
  request maxRetries { method := .get, target := .request requestId, body := none }

def submitOption (requestId optionId : String) (body : SubmitBody) : Activity (Except String Request) :=
  request maxRetries { method := .post, target := .option requestId optionId, body := some body }

end NodApi

/-! ## The runtime -/

structure DeviceKey where
  keyId : String
  algorithm : String

def DeviceKey.signer (key : DeviceKey) (sign : String → Except String String) : DeviceSigner :=
  { keyId := key.keyId, algorithm := key.algorithm, sign }

/-- What the runtime reads of the configuration and the credential store. -/
structure Device where
  servers : List ServerProfile
  apiForProfile : ServerProfile → Except String Unit
  deviceSignerFor : ServerProfile → Except String (Option DeviceKey)

structure SubmitRequestOptionParams where
  answerValue : Option AnswerValue
  expectedRequestDigest : String
  serverId : String
  requestId : String
  optionId : String
  text : Option String

def Device.serverProfile (device : Device) (serverId : String) : Except String ServerProfile :=
  orElse "This notification belongs to a server that is no longer enrolled."
    (device.servers.find? fun p => p.id = serverId ∨ p.credentialId = some serverId)

def renderedRequest (serverId requestId : String) : Activity (Option Request) :=
  .locked id fun s =>
    .done (if s.state.selectedServerId = some serverId then s.requestsById[requestId]? else none)

def applyTargetedRequest (serverId : String) (request : Request) : Activity Unit :=
  .locked id fun s =>
    if s.state.selectedServerId = some serverId then
      .locked (fun s => (s.applyRequestUpdate request).1) fun _ => .done ()
    else .done ()

/-- `build_value_decision_signature` up to the signer: the digest and the payload to be signed. -/
def preparedDecision (key : DeviceKey) (nonce : String) (signedAt : DateTime)
    (signing : DecisionSigningRequest) (answer : Option AnswerValue)
    (expectedDigest : Option String) : Except String (String × String) := do
  checkAnswer signing.request answer
  let (requestDigest, recomputed) ← digestsOf E signing.request
  refuseIf (expectedDigest = none ∨ expectedDigest = some "" ∨ expectedDigest ≠ some requestDigest)
    requestChangedError
  refuseIf (recomputed ≠ requestDigest)
    ("request digest does not match request content for " ++ signing.request.id)
  let option ← optionFor signing.request signing.optionId
  let payload ← signedPayload E
    { requestId := signing.request.id, requestDigest, optionId := option.id
      optionKind := option.kind, userId := signing.userId, deviceId := signing.deviceId
      keyId := key.keyId, nonce, signedAt := signedAt.toRfc3339Millis
      text := signing.text.bind trimmedText } answer
  pure (requestDigest, payload)

def signatureRecord (key : DeviceKey) (nonce : String) (signedAt : DateTime)
    (answer : Option AnswerValue) (requestDigest signature : String) : DecisionSignature :=
  { payloadVersion := answer.map fun _ => valueDecisionPayloadVersion
    keyId := key.keyId, algorithm := key.algorithm, nonce
    signedAt := signedAt.toRfc3339Millis, requestDigest, signature }

/-- What `decision_signature` checks and reads before it asks for the signature. -/
def preparedSignature (device : Device) (nonce : String) (signedAt : DateTime)
    (profile : ServerProfile) (request : Request) (option : SubmitRequestOptionParams) :
    Except String (DeviceKey × String × String) := do
  let signer ← device.deviceSignerFor profile
  let key ← orElse
    "The device signing key is unavailable. Unlock the credential store or enroll again." signer
  let userId ← orElse "server profile is missing user identity" profile.userId
  let deviceId ← orElse "server profile is missing device identity" profile.deviceId
  let prepared ← preparedDecision E key nonce signedAt
    { request, optionId := option.optionId, text := option.text, userId, deviceId }
    option.answerValue (some option.expectedRequestDigest)
  pure (key, prepared)

def decisionSignature (device : Device) (nonce : String) (signedAt : DateTime)
    (profile : ServerProfile) (request : Request) (option : SubmitRequestOptionParams) :
    Activity (Except String DecisionSignature) :=
  match preparedSignature E device nonce signedAt profile request option with
  | .error e => .done (.error e)
  | .ok (key, requestDigest, payload) =>
    .ask (.sign payload) fun signature =>
      .done (signature.map (signatureRecord key nonce signedAt option.answerValue requestDigest))

/-- The checks before anything is asked: the server's profile, a rendered digest, credentials. -/
def submissionTarget (device : Device) (params : SubmitRequestOptionParams) :
    Except String (ServerProfile × String) := do
  let profile ← device.serverProfile params.serverId
  let renderedDigest := Text.trim params.expectedRequestDigest
  refuseIf (renderedDigest = "") requestChangedError
  device.apiForProfile profile
  pure (profile, renderedDigest)

/-- A request that is still pending and asserts the rendered digest. -/
def checkAuthoritative (profile : ServerProfile) (renderedDigest : String) (authoritative : Request) :
    Activity (Except String Request) :=
  if authoritative.status ≠ .pending then
    (applyTargetedRequest profile.id authoritative).bind fun _ =>
      .done (.error "This request has already been handled. Refresh to see its outcome.")
  else if assertedRequestDigest authoritative ≠ some renderedDigest then
    .done (.error requestChangedError)
  else .done (.ok authoritative)

/-- The post, and what follows it: an error may be a response that was lost after the commit. -/
def postDecision (profile : ServerProfile) (option : SubmitRequestOptionParams)
    (signature : DecisionSignature) : Activity (Except String Request) :=
  (NodApi.submitOption option.requestId option.optionId
      { answerValue := option.answerValue, text := option.text, signature := some signature }).bind
    fun
    | .ok request => (applyTargetedRequest profile.id request).bind fun _ => .done (.ok request)
    | .error e => (NodApi.getRequest option.requestId).bind fun
      | .ok current => (applyTargetedRequest profile.id current).bind fun _ => .done (.error e)
      | .error _ => .done (.error e)

/-- The local copy is signed where there is one, the copy just read otherwise. -/
def signRendered (device : Device) (nonce : String) (signedAt : DateTime) (profile : ServerProfile)
    (option : SubmitRequestOptionParams) (authoritative : Request) : Activity (Except String Request) :=
  (renderedRequest profile.id option.requestId).bind fun held =>
    andThen (decisionSignature E device nonce signedAt profile (held.getD authoritative) option)
      fun signature => postDecision profile option signature

def submitRequestOption (device : Device) (nonce : String) (signedAt : DateTime)
    (params : SubmitRequestOptionParams) : Activity (Except String Request) :=
  match submissionTarget device params with
  | .error e => .done (.error e)
  | .ok (profile, renderedDigest) =>
    andThen (andThen (NodApi.getRequest params.requestId) (checkAuthoritative profile renderedDigest))
      (signRendered E device nonce signedAt profile
        { params with
          expectedRequestDigest := renderedDigest
          text := params.text.bind trimmedText })

/-! ## The other task -/

/-- What the sync task does to the shared state under its lock. -/
inductive SyncStep (s : StateReducer) : StateReducer → Prop
  | envelope (envelope : SyncEnvelope) : SyncStep s (envelopeLocked s envelope).1
  | refresh (reply : SnapshotReply) (revision : Nat) (now : String) :
    SyncStep s (refreshLocked s reply revision now).1
  | phase (phase : SyncPhase) : SyncStep s (s.setSyncPhase phase)
  | revoked : SyncStep s (revokedLocked s).1

abbrev SubmitConfig : Type := Config StateReducer Ask Reply (Except String Request)

abbrev Trace : Type := List (Event StateReducer Ask Reply)

end Nod.Client
