import Nod.Server.Decisions

/-
  Creating a request (`db/requests/create.rs`). A call either replays an idempotent create, joins
  the pending request of its dedupe key, or inserts a new request with its recipients, options,
  push jobs and first event; each way is one transaction.
-/

namespace Nod.Server

open Lib Nod.Proto

variable (P : Packages)

structure CreateRequestMetadata where
  origin : Option Origin
  createdByIssuerTokenId : Option String
  idempotencyKey : Option String
  deriving DecidableEq

/-! ## Before the transaction -/

/-- Well-formed options with distinct ids; `seen` are the ids so far. -/
def validateOptions (seen : List String) : List RequestOption → Except ApiError Unit
  | [] => .ok ()
  | option :: options => do
    validateId option.id "option id"
    refuseIf (Text.trim option.label = "") (ApiError.badRequest "option label is required")
    refuseIf (option.id ∈ seen) (ApiError.badRequest "option IDs must be unique")
    validateOptions (option.id :: seen) options

def checkIdempotencyKey (key : Option String) : Except ApiError Unit :=
  refuseIf (∃ k ∈ key, k = "" ∨ 128 < k.utf8ByteSize)
    (.badRequest "idempotency_key must contain 1 to 128 bytes")

def Origin.toJson (origin : Origin) : Json :=
  .obj [("session", .str origin.session), ("directory", .str origin.directory),
    ("reference", JsonOf.optStr origin.reference)]

/-- The hash a repeated create is compared by. -/
def requestFingerprint (req : CreateDecisionRequest) (origin : Option Origin) :
    Except ApiError String :=
  let legacy := P.sha256Hex req.toJson.text
  match origin with
  | some origin => do
    origin.validate
    pure ("origin-v1:" ++
      P.sha256Hex (Json.arr [.str "origin-v1", .str legacy, origin.toJson]).text)
  | none => .ok legacy

/-! ## Recipients -/

def userExists (userId : String) (db : Db) : Bool :=
  match db.users.get? userId with
  | some user => user.deletedAt = none
  | none => false

/-- Requested recipients, trimmed and without repeats. -/
def resolveRequested (recipients : List String) : List String → Sql (List String)
  | [] => pure recipients
  | userId :: requested => do
    let userId := Text.trim userId
    Prog.lift (validateId userId "user id")
    let found ← Prog.query (userExists userId)
    Prog.lift (refuseIf (found = false) .notFound)
    resolveRequested (if userId ∈ recipients then recipients else recipients ++ [userId]) requested

def subscribers (channelId : String) (db : Db) : List String :=
  ((db.subscriptions.rows.filter fun s =>
      s.channelId = channelId && s.subscribed && userExists s.userId db).map
    SubscriptionRow.userId).mergeSort fun a b => a ≤ b

/-- The recipients asked for, or the channel's subscribers. -/
def resolveRequestRecipients (channelId : String) (requested : Option (List String)) :
    Sql (List String) :=
  match requested with
  | some requested => do
    Prog.lift (refuseIf (requested = [])
      (.badRequest "recipients must not be empty when provided"))
    resolveRequested [] requested
  | none => Prog.query (subscribers channelId)

/-! ## Joining a pending request -/

/-- The first line of a text, without its line break. -/
def firstLine (s : String) : String :=
  let line := s.toList.takeWhile (· ≠ '\n')
  let broken := line.length < s.toList.length
  String.ofList (if broken ∧ line.getLast? = some '\r' then line.dropLast else line)

def cardSummary (req : CreateDecisionRequest) : String :=
  if Text.trim req.summary = "" then String.ofList ((firstLine req.bodyMarkdown).toList.take 160)
  else req.summary

def normalizedOptionalText (value : Option String) : Option String :=
  (value.map Text.trim).filter (· ≠ "")

def normalizedNotification (notification : RequestNotification) : RequestNotification :=
  { notification with
    title := normalizedOptionalText notification.title
    body := normalizedOptionalText notification.body }

/-- Whether a repeated value card asks for something else than the pending one. -/
def differs (req : CreateDecisionRequest) (recipients : List String) (request : DecisionRequest) :
    Prop :=
  req.answerField ≠ request.answerField ∨ Text.trim req.title ≠ request.title ∨
    Text.trim (cardSummary req) ≠ request.summary ∨
    Text.trim req.bodyMarkdown ≠ request.bodyMarkdown ∨ req.fields ≠ request.fields ∨
    req.links ≠ request.links ∨ req.imageUrl ≠ request.imageUrl ∨
    normalizedNotification req.notification ≠ request.notification ∨
    req.expiresAt ≠ request.expiresAt ∨ req.callbackUrl ≠ request.callbackUrl ∨
    normalizeOptions req.options ≠ request.options ∨ recipients ≠ request.recipients ∨
    req.decisionResolution.getD .shared ≠ request.decisionResolution

instance (req : CreateDecisionRequest) (recipients : List String) (request : DecisionRequest) :
    Decidable (differs req recipients request) :=
  inferInstanceAs (Decidable (_ ∨ _))

def pendingByDedupeKey (channelId key : String) (db : Db) : Option String :=
  (db.requests.rows.find? fun r =>
    r.channelId = channelId && r.dedupeKey = some key && r.status = .pending).map RequestRow.id

def findPendingRequestByDedupeKey (channelId : String) (key : Option String) :
    Sql (Option DecisionRequest) :=
  match key with
  | none => pure none
  | some key => do
    let found ← Prog.query (pendingByDedupeKey channelId key)
    match found with
    | none => pure none
    | some id => some <$> getRequestOn P id

structure IdempotencyBinding where
  scope : String
  channelId : String
  key : Option String
  fingerprint : String

/-- A taken key or a missing request is an error. -/
def insertIdempotency (row : IdempotencyRow) (db : Db) : Option (Unit × Db) :=
  if db.requests.get? row.requestId = none then none
  else (db.idempotency.insert? row).map fun idempotency =>
    ((), { db with idempotency := idempotency })

def bindIdempotency (binding : IdempotencyBinding) (requestId : String) : Sql Unit :=
  match binding.key with
  | some key =>
    Prog.onTx (insertIdempotency
      { scope := binding.scope, channelId := binding.channelId, key := key
        fingerprint := binding.fingerprint, requestId := requestId })
  | none => pure ()

/-- A value card joins only an identical request. -/
def checkValueJoin (req : CreateDecisionRequest) (origin : Option Origin)
    (recipients : List String) (request : DecisionRequest) : Sql Unit :=
  if req.answerField ≠ none ∨ request.answerField ≠ none then do
    Prog.lift (refuseIf (differs req recipients request)
      (.conflict "pending value request has different content"))
    let bound ← originOn request.id
    Prog.lift (refuseIf (bound ≠ origin)
      (.conflict "pending value request has different content"))
  else pure ()

/-- An origin joins only a request bound to it. -/
def checkOriginJoin (origin : Option Origin) (request : DecisionRequest) : Sql Unit :=
  if origin ≠ none then do
    let bound ← originOn request.id
    Prog.lift (refuseIf (bound ≠ origin)
      (.conflict "pending request has a different origin binding"))
  else pure ()

def joinPending (req : CreateDecisionRequest) (origin : Option Origin)
    (binding : IdempotencyBinding) (recipients : List String) (request : DecisionRequest) :
    Sql CreatedDecisionRequest := do
  checkValueJoin req origin recipients request
  checkOriginJoin origin request
  bindIdempotency binding request.id
  Prog.commitTx
  pure { requestId := request.id, deduped := true, request }

/-- The same key again: the request it made, if the content is the same. -/
def replayCreate (fingerprint : String) (row : IdempotencyRow) : Sql CreatedDecisionRequest := do
  Prog.lift (refuseIf (row.fingerprint ≠ fingerprint)
    (.conflict "idempotency_key was already used for different request content"))
  let request ← getRequestOn P row.requestId
  Prog.commitTx
  pure { requestId := request.id, deduped := true, request }

/-! ## Inserting a new request -/

/-- The row as inserted; its answer field is set by the next statement. -/
def newRow (env : Env) (req : CreateDecisionRequest) (creator : Option String) : RequestRow :=
  { id := env.newId 0, channelId := req.channelId, title := Text.trim req.title
    summary := Text.trim (cardSummary req), bodyMarkdown := Text.trim req.bodyMarkdown
    fields := req.fields, links := req.links, imageUrl := req.imageUrl
    notification := normalizedNotification req.notification, dedupeKey := req.dedupeKey
    expiresAt := req.expiresAt.map DateTime.toRfc3339Millis, status := .pending
    createdAt := env.nowString 0, updatedAt := env.nowString 0, resolvedAt := none
    decision := none, callbackUrl := req.callbackUrl
    decisionResolution := req.decisionResolution.getD .shared, recipientSalt := env.salt (env.newId 0)
    explicitRecipients := req.recipients ≠ none, revision := 0, createdByIssuerTokenId := creator
    answerField := none }

/-- A known channel and issuer, a new id, and one pending request for each dedupe key. -/
def insertRequest (row : RequestRow) (db : Db) : Option (Unit × Db) :=
  if db.channels.get? row.channelId = none ∨
      (∃ token ∈ row.createdByIssuerTokenId, db.issuerTokens.get? token = none) ∨
      (∃ key ∈ row.dedupeKey, row.status = .pending ∧
        pendingByDedupeKey row.channelId key db ≠ none) then none
  else (db.requests.insert? row).map fun requests => ((), { db with requests := requests })

def setAnswerField (id : String) (field : Option AnswerField) (db : Db) : Option (Unit × Db) :=
  some ((), { db with
    requests := db.requests.update (fun r => r.id = id)
      (fun r => { r with answerField := field }) fun _ => rfl })

def insertRecipient (row : RecipientRow) (db : Db) : Option (Unit × Db) :=
  if db.requests.get? row.requestId = none ∨ db.users.get? row.userId = none then none
  else (db.recipients.insert? row).map fun recipients => ((), { db with recipients := recipients })

def insertOption (row : OptionRow) (db : Db) : Option (Unit × Db) :=
  if db.requests.get? row.requestId = none then none
  else (db.options.insert? row).map fun options => ((), { db with options := options })

def insertRecipients (id : String) : List String → Sql Unit
  | [] => pure ()
  | userId :: recipients => do
    Prog.onTx (insertRecipient ⟨id, userId⟩)
    insertRecipients id recipients

def insertOptions (id : String) : List RequestOption → Sql Unit
  | [] => pure ()
  | option :: options => do
    Prog.onTx (insertOption ⟨id, option⟩)
    insertOptions id options

/-- SQL's `TRIM`: spaces only. -/
def sqlTrim (s : String) : String :=
  String.ofList ((s.toList.dropWhile (· = ' ')).rdropWhile (· = ' '))

def pushable (device : DeviceRow) : Bool :=
  device.revokedAt = none && nonBlank device.pushToken && nonBlank device.nativeAppId
where
  nonBlank : Option String → Bool
    | some s => sqlTrim s ≠ ""
    | none => false

/-- One queued job for each device of a recipient that can be pushed to. -/
def queuePushes (id now : String) (db : Db) : Option (Unit × Db) :=
  let jobs := (db.devices.rows.filter fun d =>
      pushable d && db.recipients.rows.any fun r => r.requestId = id && r.userId = d.userId).map
    fun d =>
      { requestId := id, deviceId := d.id, status := "queued", attempts := 0, leaseUntil := none
        claimGeneration := 0, updatedAt := now, error := none : PushDeliveryRow }
  (db.pushDeliveries.insertAll? jobs).map fun pushes => ((), { db with pushDeliveries := pushes })

def insertOrigin (id : String) (origin : Option Origin) : Sql Unit :=
  match origin with
  | some origin =>
    Prog.onTx fun db =>
      if db.requests.get? id = none then none
      else (db.origins.insert? ⟨id, origin⟩).map fun origins => ((), { db with origins := origins })
  | none => pure ()

def requestCreated : String := "nod.request.created"

def insertNew (env : Env) (req : CreateDecisionRequest) (metadata : CreateRequestMetadata)
    (binding : IdempotencyBinding) (recipients : List String) : Sql CreatedDecisionRequest := do
  let id := env.newId 0
  Prog.onTx (insertRequest (newRow env req metadata.createdByIssuerTokenId))
  Prog.onTx (setAnswerField id req.answerField)
  insertRecipients id recipients
  insertOptions id (normalizeOptions req.options)
  Prog.onTx (queuePushes id (env.nowString 0))
  bindIdempotency binding id
  let request ← getRequestOn P id
  insertOrigin id metadata.origin
  appendLifecycleOn (env.newId 1) (env.nowString 1) request requestCreated none
  Prog.commitTx
  pure { requestId := id, deduped := false, request }

/-! ## The call -/

def createInChannel (env : Env) (req : CreateDecisionRequest) (metadata : CreateRequestMetadata)
    (binding : IdempotencyBinding) : Sql CreatedDecisionRequest := do
  let channel ← Prog.query fun db => db.channels.get? req.channelId
  Prog.lift (refuseIf (channel = none) .notFound)
  let recipients ← resolveRequestRecipients req.channelId req.recipients
  let pending ← findPendingRequestByDedupeKey P req.channelId req.dedupeKey
  match pending with
  | some request => joinPending req metadata.origin binding recipients request
  | none => insertNew P env req metadata binding recipients

def findIdempotency (scope channelId : String) (key : Option String) :
    Sql (Option IdempotencyRow) :=
  match key with
  | some key => Prog.query fun db => db.idempotency.get? (scope, channelId, key)
  | none => pure none

def createRequest (env : Env) (req : CreateDecisionRequest) (metadata : CreateRequestMetadata) :
    Sql CreatedDecisionRequest := do
  Prog.lift (validateRequest P req)
  Prog.lift (validateOptions [] req.options)
  let key := metadata.idempotencyKey.map Text.trim
  Prog.lift (checkIdempotencyKey key)
  let fingerprint ← Prog.lift (requestFingerprint P req metadata.origin)
  let scope := metadata.createdByIssuerTokenId.getD "admin"
  Prog.beginTx
  let replay ← findIdempotency scope req.channelId key
  match replay with
  | some row => replayCreate P fingerprint row
  | none => createInChannel P env req metadata ⟨scope, req.channelId, key, fingerprint⟩

/-! ## One transaction -/

theorem txOnly_resolveRequested (recipients requested : List String) :
    Prog.TxOnly (resolveRequested recipients requested) := by
  induction requested generalizing recipients with
  | nil => exact Prog.txOnly_pure _
  | cons userId requested ih =>
    refine Prog.txOnly_bind (Prog.txOnly_lift _) fun _ => ?_
    refine Prog.txOnly_bind (Prog.txOnly_query _) fun _ => ?_
    exact Prog.txOnly_bind (Prog.txOnly_lift _) fun _ => ih _

theorem txOnly_resolveRequestRecipients (channelId : String) (requested : Option (List String)) :
    Prog.TxOnly (resolveRequestRecipients channelId requested) := by
  cases requested with
  | none => exact Prog.txOnly_query _
  | some requested =>
    exact Prog.txOnly_bind (Prog.txOnly_lift _) fun _ => txOnly_resolveRequested _ _

theorem txOnly_findPendingRequestByDedupeKey (channelId : String) (key : Option String) :
    Prog.TxOnly (findPendingRequestByDedupeKey P channelId key) := by
  cases key with
  | none => exact Prog.txOnly_pure _
  | some key =>
    refine Prog.txOnly_bind (Prog.txOnly_query _) fun found => ?_
    cases found with
    | none => exact Prog.txOnly_pure _
    | some id => exact Prog.txOnly_bind (txOnly_getRequestOn P id) fun _ => Prog.txOnly_pure _

theorem txOnly_bindIdempotency (binding : IdempotencyBinding) (requestId : String) :
    Prog.TxOnly (bindIdempotency binding requestId) := by
  unfold bindIdempotency
  cases binding.key with
  | none => exact Prog.txOnly_pure _
  | some key => exact Prog.txOnly_onTx _

theorem txOnly_checkValueJoin (req : CreateDecisionRequest) (origin : Option Origin)
    (recipients : List String) (request : DecisionRequest) :
    Prog.TxOnly (checkValueJoin req origin recipients request) := by
  unfold checkValueJoin
  split
  · refine Prog.txOnly_bind (Prog.txOnly_lift _) fun _ => ?_
    exact Prog.txOnly_bind (Prog.txOnly_query _) fun _ => Prog.txOnly_lift _
  · exact Prog.txOnly_pure _

theorem txOnly_checkOriginJoin (origin : Option Origin) (request : DecisionRequest) :
    Prog.TxOnly (checkOriginJoin origin request) := by
  unfold checkOriginJoin
  split
  · exact Prog.txOnly_bind (Prog.txOnly_query _) fun _ => Prog.txOnly_lift _
  · exact Prog.txOnly_pure _

theorem committing_joinPending (req : CreateDecisionRequest) (origin : Option Origin)
    (binding : IdempotencyBinding) (recipients : List String) (request : DecisionRequest) :
    Prog.Committing (joinPending req origin binding recipients request) := by
  refine Prog.committing_bind (txOnly_checkValueJoin _ _ _ _) fun _ => ?_
  refine Prog.committing_bind (txOnly_checkOriginJoin _ _) fun _ => ?_
  refine Prog.committing_bind (txOnly_bindIdempotency _ _) fun _ => ?_
  exact Prog.committing_commitTx _

theorem committing_replayCreate (fingerprint : String) (row : IdempotencyRow) :
    Prog.Committing (replayCreate P fingerprint row) := by
  refine Prog.committing_bind (Prog.txOnly_lift _) fun _ => ?_
  refine Prog.committing_bind (txOnly_getRequestOn P _) fun _ => ?_
  exact Prog.committing_commitTx _

theorem txOnly_insertRecipients (id : String) (recipients : List String) :
    Prog.TxOnly (insertRecipients id recipients) := by
  induction recipients with
  | nil => exact Prog.txOnly_pure _
  | cons userId recipients ih => exact Prog.txOnly_bind (Prog.txOnly_onTx _) fun _ => ih

theorem txOnly_insertOptions (id : String) (options : List RequestOption) :
    Prog.TxOnly (insertOptions id options) := by
  induction options with
  | nil => exact Prog.txOnly_pure _
  | cons option options ih => exact Prog.txOnly_bind (Prog.txOnly_onTx _) fun _ => ih

theorem txOnly_insertOrigin (id : String) (origin : Option Origin) :
    Prog.TxOnly (insertOrigin id origin) := by
  cases origin with
  | none => exact Prog.txOnly_pure _
  | some origin => exact Prog.txOnly_onTx _

theorem committing_insertNew (env : Env) (req : CreateDecisionRequest)
    (metadata : CreateRequestMetadata) (binding : IdempotencyBinding) (recipients : List String) :
    Prog.Committing (insertNew P env req metadata binding recipients) := by
  refine Prog.committing_bind (Prog.txOnly_onTx _) fun _ => ?_
  refine Prog.committing_bind (Prog.txOnly_onTx _) fun _ => ?_
  refine Prog.committing_bind (txOnly_insertRecipients _ _) fun _ => ?_
  refine Prog.committing_bind (txOnly_insertOptions _ _) fun _ => ?_
  refine Prog.committing_bind (Prog.txOnly_onTx _) fun _ => ?_
  refine Prog.committing_bind (txOnly_bindIdempotency _ _) fun _ => ?_
  refine Prog.committing_bind (txOnly_getRequestOn P _) fun request => ?_
  refine Prog.committing_bind (txOnly_insertOrigin _ _) fun _ => ?_
  refine Prog.committing_bind (txOnly_appendLifecycleOn _ _ _ _ _) fun _ => ?_
  exact Prog.committing_commitTx _

theorem committing_createInChannel (env : Env) (req : CreateDecisionRequest)
    (metadata : CreateRequestMetadata) (binding : IdempotencyBinding) :
    Prog.Committing (createInChannel P env req metadata binding) := by
  refine Prog.committing_bind (Prog.txOnly_query _) fun _ => ?_
  refine Prog.committing_bind (Prog.txOnly_lift _) fun _ => ?_
  refine Prog.committing_bind (txOnly_resolveRequestRecipients _ _) fun recipients => ?_
  refine Prog.committing_bind (txOnly_findPendingRequestByDedupeKey P _ _) fun pending => ?_
  cases pending with
  | some request => exact committing_joinPending _ _ _ _ _
  | none => exact committing_insertNew P _ _ _ _ _

theorem txOnly_findIdempotency (scope channelId : String) (key : Option String) :
    Prog.TxOnly (findIdempotency scope channelId key) := by
  cases key with
  | none => exact Prog.txOnly_pure _
  | some key => exact Prog.txOnly_query _

theorem transactional_createRequest (env : Env) (req : CreateDecisionRequest)
    (metadata : CreateRequestMetadata) :
    Prog.Transactional (createRequest P env req metadata) := by
  refine Prog.transactional_lift_bind fun _ _ => ?_
  refine Prog.transactional_lift_bind fun _ _ => ?_
  refine Prog.transactional_lift_bind fun _ _ => ?_
  refine Prog.transactional_lift_bind fun fingerprint _ => ?_
  refine Prog.transactional_begin ?_
  refine Prog.committing_bind (txOnly_findIdempotency _ _ _) fun replay => ?_
  cases replay with
  | some row => exact committing_replayCreate P _ _
  | none => exact committing_createInChannel P _ _ _ _

/-! ## What a create has done -/

/-- Statements that leave the tables alone, up to idempotency keys. -/
def OnlyIdempotency (db db' : Db) : Prop :=
  ∃ idempotency, db' = { db with idempotency := idempotency }

theorem eval_bindIdempotency {binding : IdempotencyBinding} {requestId : String} {db db' : Db}
    {u : Unit} (h : Prog.eval databaseError (bindIdempotency binding requestId) db = .ok (u, db')) :
    OnlyIdempotency db db' := by
  unfold bindIdempotency at h
  cases hkey : binding.key with
  | none =>
    rw [hkey] at h
    cases h
    exact ⟨db.idempotency, rfl⟩
  | some key =>
    rw [hkey, Prog.eval_onTx_eq_ok, insertIdempotency] at h
    split at h
    · cases h
    · obtain ⟨idempotency, -, hdb⟩ := Option.map_eq_some_iff.mp h
      cases hdb
      exact ⟨idempotency, rfl⟩

/-- A query-only part of a create leaves the tables alone. -/
theorem eval_originCheck {origin : Option Origin} {id : String} {e : ApiError} {db db' : Db}
    {u : Unit} (h : Prog.eval databaseError (do
      let bound ← originOn id
      Prog.lift (refuseIf (bound ≠ origin) e)) db = .ok (u, db')) : db' = db := by
  simp only [originOn, Prog.eval_bind_eq_ok, Prog.eval_query, Except.ok.injEq, Prod.mk.injEq,
    Prog.eval_lift_eq_ok] at h
  obtain ⟨_, _, ⟨_, rfl⟩, _, rfl⟩ := h
  rfl

theorem eval_checkValueJoin {req : CreateDecisionRequest} {origin : Option Origin}
    {recipients : List String} {request : DecisionRequest} {db db' : Db} {u : Unit}
    (h : Prog.eval databaseError (checkValueJoin req origin recipients request) db = .ok (u, db')) :
    db' = db := by
  unfold checkValueJoin at h
  split at h
  · obtain ⟨_, s, hdiff, hcheck⟩ := Prog.eval_bind_eq_ok.mp h
    obtain ⟨-, rfl⟩ := Prog.eval_lift_eq_ok.mp hdiff
    exact eval_originCheck hcheck
  · cases h
    rfl

theorem eval_checkOriginJoin {origin : Option Origin} {request : DecisionRequest} {db db' : Db}
    {u : Unit}
    (h : Prog.eval databaseError (checkOriginJoin origin request) db = .ok (u, db')) :
    db' = db := by
  unfold checkOriginJoin at h
  split at h
  · exact eval_originCheck h
  · cases h
    rfl

/-- A create that made nothing: it returns a stored request and binds a key at most. -/
structure Joined (db db' : Db) (created : CreatedDecisionRequest) : Prop where
  deduped : created.deduped = true
  requestId : created.requestId = created.request.id
  read : ∃ id, readRequest P db id = .ok created.request
  rest : OnlyIdempotency db db'

theorem joined_of_joinPending {req : CreateDecisionRequest} {origin : Option Origin}
    {binding : IdempotencyBinding} {recipients : List String} {request : DecisionRequest}
    {db db' : Db} {created : CreatedDecisionRequest}
    (hread : ∃ id, readRequest P db id = .ok request)
    (h : Prog.eval databaseError (joinPending req origin binding recipients request) db =
      .ok (created, db')) : Joined P db db' created := by
  simp only [joinPending, Prog.eval_bind_eq_ok, Prog.eval_commitTx, Prog.eval_pure,
    Except.ok.injEq, Prod.mk.injEq] at h
  obtain ⟨_, s1, hvalue, _, s2, horigin, _, s3, hbind, _, _, ⟨_, rfl⟩, rfl, rfl⟩ := h
  rw [eval_checkOriginJoin horigin, eval_checkValueJoin hvalue] at hbind
  exact ⟨rfl, rfl, hread, eval_bindIdempotency hbind⟩

theorem joined_of_replayCreate {fingerprint : String} {row : IdempotencyRow} {db db' : Db}
    {created : CreatedDecisionRequest}
    (h : Prog.eval databaseError (replayCreate P fingerprint row) db = .ok (created, db')) :
    Joined P db db' created := by
  simp only [replayCreate, Prog.eval_bind_eq_ok, Prog.eval_lift_eq_ok, eval_getRequestOn_eq_ok,
    Prog.eval_commitTx, Prog.eval_pure, Except.ok.injEq, Prod.mk.injEq] at h
  obtain ⟨_, _, ⟨_, rfl⟩, request, _, ⟨hread, rfl⟩, _, _, ⟨_, rfl⟩, rfl, rfl⟩ := h
  exact ⟨rfl, rfl, ⟨_, hread⟩, ⟨db.idempotency, rfl⟩⟩

/-! ## The inserts -/

theorem eval_insertRecipients {id : String} {recipients : List String} {db db' : Db} {u : Unit}
    (h : Prog.eval databaseError (insertRecipients id recipients) db = .ok (u, db')) :
    ∃ table, db' = { db with recipients := table } ∧
      table.rows = db.recipients.rows ++ recipients.map (RecipientRow.mk id) ∧
      ∀ userId ∈ recipients, db.users.get? userId ≠ none := by
  induction recipients generalizing db with
  | nil =>
    cases h
    exact ⟨_, rfl, (List.append_nil _).symm, fun _ hm => absurd hm List.not_mem_nil⟩
  | cons userId recipients ih =>
    obtain ⟨_, s, hins, hrest⟩ := Prog.eval_bind_eq_ok.mp h
    rw [Prog.eval_onTx_eq_ok, insertRecipient] at hins
    split at hins
    · cases hins
    · rename_i hfk
      obtain ⟨inserted, hinserted, hdb⟩ := Option.map_eq_some_iff.mp hins
      cases hdb
      obtain ⟨table, rfl, hrows, hknown⟩ := ih hrest
      refine ⟨table, rfl, ?_, ?_⟩
      · rw [hrows, (Table.insert?_eq_some.mp hinserted).2, List.append_assoc, List.map_cons,
          List.singleton_append]
      · intro v hv
        rcases List.mem_cons.mp hv with rfl | hv
        · exact (not_or.mp hfk).2
        · exact hknown v hv

theorem eval_insertOptions {id : String} {options : List RequestOption} {db db' : Db} {u : Unit}
    (h : Prog.eval databaseError (insertOptions id options) db = .ok (u, db')) :
    ∃ table, db' = { db with options := table } ∧
      table.rows = db.options.rows ++ options.map (OptionRow.mk id) := by
  induction options generalizing db with
  | nil =>
    cases h
    exact ⟨_, rfl, (List.append_nil _).symm⟩
  | cons option options ih =>
    obtain ⟨_, s, hins, hrest⟩ := Prog.eval_bind_eq_ok.mp h
    rw [Prog.eval_onTx_eq_ok, insertOption] at hins
    split at hins
    · cases hins
    · obtain ⟨inserted, hinserted, hdb⟩ := Option.map_eq_some_iff.mp hins
      cases hdb
      obtain ⟨table, rfl, hrows⟩ := ih hrest
      refine ⟨table, rfl, ?_⟩
      rw [hrows, (Table.insert?_eq_some.mp hinserted).2, List.append_assoc, List.map_cons,
        List.singleton_append]

theorem eval_insertOrigin {id : String} {origin : Option Origin} {db db' : Db} {u : Unit}
    (h : Prog.eval databaseError (insertOrigin id origin) db = .ok (u, db')) :
    ∃ table, db' = { db with origins := table } ∧
      table.rows = db.origins.rows ++ (origin.map (OriginRow.mk id)).toList := by
  cases origin with
  | none =>
    cases h
    exact ⟨_, rfl, (List.append_nil _).symm⟩
  | some origin =>
    rw [insertOrigin, Prog.eval_onTx_eq_ok] at h
    split at h
    · cases h
    · obtain ⟨table, htable, hdb⟩ := Option.map_eq_some_iff.mp h
      cases hdb
      exact ⟨table, rfl, (Table.insert?_eq_some.mp htable).2⟩

theorem insertRequest_eq_some {row : RequestRow} {db db' : Db} {u : Unit}
    (h : insertRequest row db = some (u, db')) :
    (∀ key ∈ row.dedupeKey, row.status = .pending →
        pendingByDedupeKey row.channelId key db = none) ∧
      ∃ table, db.requests.insert? row = some table ∧ db' = { db with requests := table } := by
  unfold insertRequest at h
  split at h
  · cases h
  · rename_i hfk
    rw [not_or, not_or] at hfk
    obtain ⟨table, htable, hdb⟩ := Option.map_eq_some_iff.mp h
    cases hdb
    refine ⟨fun key hkey hpending => ?_, table, htable, rfl⟩
    by_contra hne
    exact hfk.2.2 ⟨key, hkey, hpending, hne⟩

/-- A job as its request's create leaves it. -/
structure QueuedJob (id : String) (r : PushDeliveryRow) : Prop where
  requestId : r.requestId = id
  status : r.status = "queued"
  attempts : r.attempts = 0
  claimGeneration : r.claimGeneration = 0

theorem queuePushes_eq_some {id now : String} {db db' : Db} {u : Unit}
    (h : queuePushes id now db = some (u, db')) :
    ∃ table jobs, table.rows = db.pushDeliveries.rows ++ jobs ∧ (∀ job ∈ jobs, QueuedJob id job) ∧
      db' = { db with pushDeliveries := table } := by
  obtain ⟨pushes, hpushes, hdb⟩ := Option.map_eq_some_iff.mp h
  obtain ⟨_, rfl⟩ := Table.insertAll?_eq_some.mp hpushes
  cases hdb
  refine ⟨_, _, rfl, fun job hjob => ?_, rfl⟩
  obtain ⟨device, -, rfl⟩ := List.mem_map.mp hjob
  exact ⟨rfl, rfl, rfl, rfl⟩

/-- The row a create leaves. -/
def createdRow (env : Env) (req : CreateDecisionRequest) (creator : Option String) : RequestRow :=
  { newRow env req creator with answerField := req.answerField, revision := 1 }

/-- The first event of a request. -/
def createdEvent (env : Env) (request : DecisionRequest) (node : String) (creator : Option String)
    (origin : Option Origin) (seq : Nat) : EventRow :=
  { eventRow (env.newId 1) (env.nowString 1) node requestCreated request 1 creator origin none with
    seq := seq }

/-- A create that made a request: one row with its recipients and options, and one event. -/
structure Created (env : Env) (req : CreateDecisionRequest) (metadata : CreateRequestMetadata)
    (db db' : Db) (request : DecisionRequest) (recipients : List String) (node : String) :
    Prop where
  valid : validateRequest P req = .ok ()
  validOptions : validateOptions [] req.options = .ok ()
  fresh : db.requests.get? (env.newId 0) = none
  noPending : ∀ key ∈ req.dedupeKey, pendingByDedupeKey req.channelId key db = none
  unused : ∀ e ∈ db.events.rows, e.requestId = env.newId 0 → e.revision ≠ 1
  read : readRequest P db' (env.newId 0) = .ok request
  requestRows : db'.requests.rows =
    db.requests.rows ++ [createdRow env req metadata.createdByIssuerTokenId]
  recipientRows : db'.recipients.rows =
    db.recipients.rows ++ recipients.map (RecipientRow.mk (env.newId 0))
  known : ∀ userId ∈ recipients, db.users.get? userId ≠ none
  optionRows : db'.options.rows =
    db.options.rows ++ (normalizeOptions req.options).map (OptionRow.mk (env.newId 0))
  originRows : db'.origins.rows =
    db.origins.rows ++ (metadata.origin.map (OriginRow.mk (env.newId 0))).toList
  named : db.integrationMeta.get? "node_id" = some ("node_id", node)
  event : ∃ origin, db'.events.rows = db.events.rows ++
    [createdEvent env request node metadata.createdByIssuerTokenId origin (db.eventSeq + 1)]
  pushes : ∃ jobs, db'.pushDeliveries.rows = db.pushDeliveries.rows ++ jobs ∧
    ∀ job ∈ jobs, QueuedJob (env.newId 0) job
  rest : db' = { db with
    requests := db'.requests, recipients := db'.recipients, options := db'.options
    pushDeliveries := db'.pushDeliveries, idempotency := db'.idempotency, origins := db'.origins
    events := db'.events, eventSeq := db.eventSeq + 1 }

/-- Updates of a fresh last row change that row only. -/
theorem rows_update_fresh {table : Table RequestRow.id} {rows : List RequestRow} {row : RequestRow}
    {f : RequestRow → RequestRow} {hf : ∀ r, (f r).id = r.id}
    (hrows : table.rows = rows ++ [row]) (hfresh : row.id ∉ rows.map RequestRow.id) :
    (table.update (fun r => r.id = row.id) f hf).rows = rows ++ [f row] := by
  rw [Table.rows_update, hrows, List.map_append, List.map_singleton, if_pos (decide_eq_true rfl)]
  congr 1
  rw [List.map_congr_left (g := id), List.map_id]
  intro r hr
  have hne : r.id ≠ row.id := fun hid => hfresh (List.mem_map.mpr ⟨r, hr, hid⟩)
  rw [if_neg (by simpa using hne)]
  rfl

theorem created_of_insertNew {env : Env} {req : CreateDecisionRequest}
    {metadata : CreateRequestMetadata} {binding : IdempotencyBinding} {recipients : List String}
    {db db' : Db} {created : CreatedDecisionRequest}
    (hvalid : validateRequest P req = .ok ()) (hoptions : validateOptions [] req.options = .ok ())
    (h : Prog.eval databaseError (insertNew P env req metadata binding recipients) db =
      .ok (created, db')) :
    created.deduped = false ∧ created.requestId = env.newId 0 ∧
      ∃ node, Created P env req metadata db db' created.request recipients node := by
  simp only [insertNew, Prog.eval_bind_eq_ok, Prog.eval_onTx_eq_ok, eval_getRequestOn_eq_ok,
    Prog.eval_commitTx, Prog.eval_pure, Except.ok.injEq, Prod.mk.injEq] at h
  obtain ⟨_, s1, hrow, _, s2, hfield, _, s3, hrecipients, _, s4, hopts, _, s5, hpush, _, s6, hbind,
    request, _, ⟨hread, rfl⟩, _, s7, horigin, _, s8, happend, _, _, ⟨_, rfl⟩, rfl, rfl⟩ := h
  obtain ⟨hpending, requests, hinsert, rfl⟩ := insertRequest_eq_some hrow
  obtain ⟨hfresh, hrows⟩ := Table.insert?_eq_some.mp hinsert
  simp only [setAnswerField, Option.some.injEq, Prod.mk.injEq, true_and] at hfield
  subst hfield
  obtain ⟨recipientTable, rfl, hrecipientRows, hknown⟩ := eval_insertRecipients hrecipients
  obtain ⟨optionTable, rfl, hoptionRows⟩ := eval_insertOptions hopts
  obtain ⟨pushTable, jobs, hpushRows, hjobs, rfl⟩ := queuePushes_eq_some hpush
  obtain ⟨idempotencyTable, rfl⟩ := eval_bindIdempotency hbind
  obtain ⟨originTable, hs7, horiginRows⟩ := eval_insertOrigin horigin
  have hrequests : s7.requests = requests.update (fun r => r.id = env.newId 0)
      (fun r => { r with answerField := req.answerField }) fun _ => rfl := by rw [hs7]
  have hid : request.id = env.newId 0 := id_of_readRequest P hread
  have hread7 : readRequest P s7 (env.newId 0) = .ok request := by
    rw [hs7]
    exact hread
  have hevents7 : s7.events = db.events := by rw [hs7]
  have hmeta7 : s7.integrationMeta = db.integrationMeta := by rw [hs7]
  have hcallbacks7 : s7.callbacks = db.callbacks := by rw [hs7]
  have hseq7 : s7.eventSeq = db.eventSeq := by rw [hs7]
  have hrest7 : s7 = { db with
      requests := s7.requests, recipients := recipientTable, options := optionTable
      pushDeliveries := pushTable, idempotency := idempotencyTable, origins := originTable } := by
    rw [hs7]
  clear hs7
  obtain ⟨row, node, happended⟩ := appended_of_eval happend
  have hfreshRow : env.newId 0 ∉ db.requests.rows.map RequestRow.id := Table.get?_eq_none.mp hfresh
  have hrow : row = { newRow env req metadata.createdByIssuerTokenId with
      answerField := req.answerField } := by
    have hstored := happended.stored
    have hnew : requests.get? (env.newId 0) =
        some (newRow env req metadata.createdByIssuerTokenId) := by
      rw [Table.get?_insert? hinsert]
      exact if_pos rfl
    rw [hid, hrequests, Table.get?_update, hnew] at hstored
    have hself : decide ((newRow env req metadata.createdByIssuerTokenId).id = env.newId 0) = true :=
      decide_eq_true rfl
    rw [Option.map_some, if_pos hself] at hstored
    exact (Option.some.inj hstored).symm
  have hcallbacks : s8.callbacks = db.callbacks := by
    apply Table.ext
    rw [happended.callbacks, hcallbacks7]
    exact List.append_nil _
  have hfirst : (requests.update (fun r => r.id = env.newId 0)
      (fun r => { r with answerField := req.answerField }) fun _ => rfl).rows =
        db.requests.rows ++ [{ newRow env req metadata.createdByIssuerTokenId with
          answerField := req.answerField }] := rows_update_fresh hrows hfreshRow
  refine ⟨rfl, rfl, node, hvalid, hoptions, hfresh, fun key hkey => hpending key hkey rfl, ?_, ?_,
    ?_, ?_, hknown, ?_, ?_, ?_, ?_, ⟨jobs, ?_, hjobs⟩, ?_⟩
  · intro e he hreq
    have := happended.unused e (hevents7 ▸ he) (hreq.trans hid.symm)
    rw [hrow] at this
    exact this
  · rw [happended.readRequest]
    exact hread7
  · rw [happended.requests, hid, hrequests]
    exact rows_update_fresh hfirst hfreshRow
  · rw [congrArg Db.recipients happended.rest, congrArg Db.recipients hrest7]
    exact hrecipientRows
  · rw [congrArg Db.options happended.rest, congrArg Db.options hrest7]
    exact hoptionRows
  · rw [congrArg Db.origins happended.rest, congrArg Db.origins hrest7]
    exact horiginRows
  · rw [← hmeta7]
    exact happended.named
  · refine ⟨(s7.origins.get? request.id).map OriginRow.origin, ?_⟩
    have hevents := happended.events
    rw [Db.nextEvent, hrow, hevents7, hseq7] at hevents
    exact hevents
  · rw [congrArg Db.pushDeliveries happended.rest, congrArg Db.pushDeliveries hrest7]
    exact hpushRows
  · have hrest := happended.rest
    rw [hcallbacks, hseq7, hrest7] at hrest
    conv_lhs => rw [hrest]
    rw [congrArg Db.recipients hrest, congrArg Db.options hrest, congrArg Db.origins hrest,
      congrArg Db.pushDeliveries hrest, congrArg Db.idempotency hrest]

theorem eval_resolveRequested {recipients requested rs : List String} {db db' : Db}
    (h : Prog.eval databaseError (resolveRequested recipients requested) db = .ok (rs, db')) :
    db' = db := by
  induction requested generalizing recipients with
  | nil =>
    cases h
    rfl
  | cons userId requested ih =>
    simp only [resolveRequested, Prog.eval_bind_eq_ok, Prog.eval_query, Prog.eval_lift_eq_ok,
      Except.ok.injEq, Prod.mk.injEq] at h
    obtain ⟨_, _, ⟨_, rfl⟩, _, _, ⟨_, rfl⟩, _, _, ⟨_, rfl⟩, h⟩ := h
    exact ih h

theorem eval_resolveRequestRecipients {channelId : String} {requested : Option (List String)}
    {rs : List String} {db db' : Db}
    (h : Prog.eval databaseError (resolveRequestRecipients channelId requested) db =
      .ok (rs, db')) : db' = db := by
  cases requested with
  | none =>
    cases h
    rfl
  | some requested =>
    obtain ⟨_, s, hne, h⟩ := Prog.eval_bind_eq_ok.mp h
    rw [eval_resolveRequested h]
    exact (Prog.eval_lift_eq_ok.mp hne).2.symm

theorem eval_findPendingRequestByDedupeKey {channelId : String} {key : Option String}
    {pending : Option DecisionRequest} {db db' : Db}
    (h : Prog.eval databaseError (findPendingRequestByDedupeKey P channelId key) db =
      .ok (pending, db')) :
    db' = db ∧ ∀ request, pending = some request → ∃ id, readRequest P db id = .ok request := by
  cases key with
  | none =>
    cases h
    exact ⟨rfl, fun _ hr => by cases hr⟩
  | some key =>
    simp only [findPendingRequestByDedupeKey, Prog.eval_bind_eq_ok, Prog.eval_query,
      Except.ok.injEq, Prod.mk.injEq] at h
    obtain ⟨found, _, ⟨hfound, rfl⟩, h⟩ := h
    cases found with
    | none =>
      cases h
      exact ⟨rfl, fun _ hr => by cases hr⟩
    | some id =>
      obtain ⟨request, s, hget, hret⟩ := Prog.eval_bind_eq_ok.mp h
      obtain ⟨hread, rfl⟩ := (eval_getRequestOn_eq_ok P).mp hget
      cases hret
      exact ⟨rfl, fun r hr => by cases hr; exact ⟨id, hread⟩⟩

/-- How a create ends: it joined a stored request, or made one. -/
theorem created_of_eval {env : Env} {req : CreateDecisionRequest}
    {metadata : CreateRequestMetadata} {db db' : Db} {created : CreatedDecisionRequest}
    (h : Prog.eval databaseError (createRequest P env req metadata) db = .ok (created, db')) :
    Joined P db db' created ∨
      created.deduped = false ∧ created.requestId = env.newId 0 ∧ ∃ recipients node,
        Created P env req metadata db db' created.request recipients node := by
  simp only [createRequest, Prog.eval_bind_eq_ok, Prog.eval_lift_eq_ok, Prog.eval_beginTx,
    Except.ok.injEq, Prod.mk.injEq] at h
  obtain ⟨_, _, ⟨hvalid, rfl⟩, _, _, ⟨hoptions, rfl⟩, _, _, ⟨hkey, rfl⟩, fingerprint, _,
    ⟨hfp, rfl⟩, _, _, ⟨_, rfl⟩, replay, s1, hreplay, h⟩ := h
  have hs1 : s1 = db := by
    cases hk : metadata.idempotencyKey.map Text.trim with
    | none =>
      rw [hk] at hreplay
      cases hreplay
      rfl
    | some key =>
      rw [hk] at hreplay
      cases hreplay
      rfl
  subst hs1
  cases replay with
  | some row => exact Or.inl (joined_of_replayCreate P h)
  | none =>
    simp only [createInChannel, Prog.eval_bind_eq_ok, Prog.eval_query, Prog.eval_lift_eq_ok,
      Except.ok.injEq, Prod.mk.injEq] at h
    obtain ⟨channel, _, ⟨rfl, rfl⟩, _, _, ⟨_, rfl⟩, recipients, s2, hrecipients, pending, s3,
      hpending, h⟩ := h
    rw [eval_resolveRequestRecipients hrecipients] at hpending
    obtain ⟨hs3, hfound⟩ := eval_findPendingRequestByDedupeKey P hpending
    rw [hs3] at h
    cases pending with
    | some request => exact Or.inl (joined_of_joinPending P (hfound request rfl) h)
    | none =>
      obtain ⟨hdeduped, hid, node, hcreated⟩ := created_of_insertNew P hvalid hoptions h
      exact Or.inr ⟨hdeduped, hid, recipients, node, hcreated⟩

end Nod.Server
