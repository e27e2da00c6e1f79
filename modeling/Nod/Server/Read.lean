import Nod.Server.Validation

/-
  Reading requests back (`db/requests/rows.rs`, `db/requests/read.rs`).
  Proved: `getRequestOn` changes nothing and returns what `readRequest` computes from the tables,
  and `requestFromRows_eq_ok` says which rows read back and as what.
-/

namespace Nod.Server

open Lib Nod.Proto

variable (P : Packages)

/-! ## Rows of a request -/

/-- What the child tables hold for one request. -/
structure RelatedRows where
  recipients : List String
  decisions : List UserDecision
  options : List RequestOption
  deriving DecidableEq

def UserDecisionRow.before (a b : UserDecisionRow) : Bool :=
  a.resolvedAt < b.resolvedAt || (a.resolvedAt == b.resolvedAt && a.userId ≤ b.userId)

def selectRecipients (ids : List String) (db : Db) : List RecipientRow :=
  db.recipients.rows.filter fun r => r.requestId ∈ ids

def selectUserDecisions (ids : List String) (db : Db) : List UserDecisionRow :=
  (db.userDecisions.rows.filter fun r => r.requestId ∈ ids).mergeSort UserDecisionRow.before

def selectOptions (ids : List String) (db : Db) : List OptionRow :=
  db.options.rows.filter fun r => r.requestId ∈ ids

/-- The rows of one request among those selected for several. -/
def relatedRows (recipients : List RecipientRow) (decisions : List UserDecisionRow)
    (options : List OptionRow) (id : String) : RelatedRows :=
  { recipients := (recipients.filter fun r => r.requestId = id).map RecipientRow.userId
    decisions := (decisions.filter fun r => r.requestId = id).map fun r => ⟨r.userId, r.decision⟩
    options := (options.filter fun r => r.requestId = id).map OptionRow.option }

/-- The digest a card is issued under: its version and value. -/
def issuedDigest (wire : Request) (commitment : String) :
    Except SigningError (String × String) :=
  match wire.answerField with
  | some field =>
    (valueRequestDigestVersion, ·) <$> valueRequestDigest P.toExternals wire commitment field
  | none => (requestDigestVersion, ·) <$> requestDigestV1 P.toExternals wire commitment

/-- A row and its related rows as a request, before signing. -/
def unsignedRequest (row : RequestRow) (related : RelatedRows) (expiresAt : Option DateTime)
    (createdAt updatedAt : DateTime) (resolvedAt : Option DateTime) : DecisionRequest :=
  { answerField := row.answerField, id := row.id, channelId := row.channelId
    recipients := related.recipients, decisionResolution := row.decisionResolution
    title := row.title, summary := row.summary, bodyMarkdown := row.bodyMarkdown
    fields := row.fields, links := row.links, imageUrl := row.imageUrl
    notification := row.notification, dedupeKey := row.dedupeKey, expiresAt
    status := row.status, createdAt, updatedAt, resolvedAt, decision := row.decision
    userDecisions := related.decisions, callbackUrl := row.callbackUrl
    options := related.options, privateRecipients := false, signing := none }

def requestFromRows (row : RequestRow) (related : RelatedRows) :
    Except ApiError DecisionRequest := do
  let commitment := recipientsCommitment P.toExternals related.recipients row.recipientSalt
  let expiresAt ← parseOptionalTime P row.expiresAt
  let createdAt ← parseTime P row.createdAt
  let updatedAt ← parseTime P row.updatedAt
  let resolvedAt ← parseOptionalTime P row.resolvedAt
  let request := unsignedRequest row related expiresAt createdAt updatedAt resolvedAt
  let (version, digest) ←
    (issuedDigest P (request.toWire P.toExternals) commitment).mapError
      fun e => ApiError.internal e.toText
  pure { request with signing := some ⟨version, commitment, digest⟩ }

def rowsToRequests (rows : List RequestRow) : Sql (List DecisionRequest) := do
  let ids := rows.map RequestRow.id
  let recipients ← Prog.query (selectRecipients ids)
  let decisions ← Prog.query (selectUserDecisions ids)
  let options ← Prog.query (selectOptions ids)
  Prog.lift (rows.mapM fun row =>
    requestFromRows P row (relatedRows recipients decisions options row.id))

def rowToRequest (row : RequestRow) : Sql DecisionRequest := do
  let requests ← rowsToRequests P [row]
  Prog.lift (orElse .notFound requests.head?)

def getRequestOn (requestId : String) : Sql DecisionRequest := do
  let row ← Prog.query fun db => db.requests.get? requestId
  let row ← Prog.lift (orElse .notFound row)
  rowToRequest P row

/-- One user's view: the other recipients are left out, and under per-user resolution the user's
    own decision stands for the request's. -/
def projectRequestForUser (request : DecisionRequest) (userId : String) : DecisionRequest :=
  let request := { request with privateRecipients := 1 < request.recipients.length }
  let request :=
    if request.decisionResolution = .perUser then
      match request.userDecisions.find? fun d => d.userId = userId with
      | some own =>
        { request with
          status := .resolved
          resolvedAt := some own.decision.resolvedAt
          decision := some own.decision }
      | none =>
        if request.status = .resolved then
          { request with status := .pending, resolvedAt := none, decision := none }
        else request
    else request
  { request with
    recipients := request.recipients.filter fun r => r = userId
    userDecisions := request.userDecisions.filter fun d => d.userId = userId }

/-! ## The read as a function of the tables -/

def Db.relatedOf (db : Db) (id : String) : RelatedRows :=
  relatedRows (selectRecipients [id] db) (selectUserDecisions [id] db) (selectOptions [id] db) id

def readRequest (db : Db) (id : String) : Except ApiError DecisionRequest := do
  let row ← orElse .notFound (db.requests.get? id)
  requestFromRows P row (db.relatedOf id)

theorem eval_rowToRequest (row : RequestRow) (db : Db) :
    Prog.eval databaseError (rowToRequest P row) db =
      (requestFromRows P row (db.relatedOf row.id)).map (·, db) := by
  simp only [rowToRequest, rowsToRequests, Prog.eval_bind, Prog.eval_query, List.map_cons,
    List.map_nil, List.mapM_cons, List.mapM_nil, Db.relatedOf]
  cases requestFromRows P row _ <;> rfl

/-- Reading a request is a function of the tables and leaves them alone. -/
theorem eval_getRequestOn (id : String) (db : Db) :
    Prog.eval databaseError (getRequestOn P id) db = (readRequest P db id).map (·, db) := by
  simp only [getRequestOn, readRequest, Prog.eval_bind, Prog.eval_query]
  cases h : db.requests.get? id with
  | none => rfl
  | some row =>
    have hid : row.id = id := Table.key_of_get? h
    simp only [orElse, Prog.lift_ok, Prog.eval_ret, eval_rowToRequest, hid]
    rfl

theorem eval_getRequestOn_eq_ok {id : String} {db : Db} {r : DecisionRequest × Db} :
    Prog.eval databaseError (getRequestOn P id) db = .ok r ↔
      readRequest P db id = .ok r.1 ∧ db = r.2 := by
  rw [eval_getRequestOn]
  cases readRequest P db id with
  | error e => simp [Except.map]
  | ok q => simp [Except.map, Prod.ext_iff]

theorem txOnly_getRequestOn (id : String) : Prog.TxOnly (getRequestOn P id) := by
  refine Prog.txOnly_bind (Prog.txOnly_query _) fun row => ?_
  refine Prog.txOnly_bind (Prog.txOnly_lift _) fun row => ?_
  refine Prog.txOnly_bind ?_ fun requests => Prog.txOnly_lift _
  refine Prog.txOnly_bind (Prog.txOnly_query _) fun recipients => ?_
  refine Prog.txOnly_bind (Prog.txOnly_query _) fun decisions => ?_
  exact Prog.txOnly_bind (Prog.txOnly_query _) fun options => Prog.txOnly_lift _

/-! ## What reads back -/

/-- A request read from a row: its times parse and its digest can be computed. -/
structure ReadsAs (row : RequestRow) (related : RelatedRows) (r : DecisionRequest)
    (version digest : String) : Prop where
  expiresAt : row.expiresAt.map DateTime.parseFromRfc3339 = r.expiresAt.map some
  createdAt : DateTime.parseFromRfc3339 row.createdAt = some r.createdAt
  updatedAt : DateTime.parseFromRfc3339 row.updatedAt = some r.updatedAt
  resolvedAt : row.resolvedAt.map DateTime.parseFromRfc3339 = r.resolvedAt.map some
  issued : issuedDigest P
    ((unsignedRequest row related r.expiresAt r.createdAt r.updatedAt r.resolvedAt).toWire
      P.toExternals)
    (recipientsCommitment P.toExternals related.recipients row.recipientSalt) =
      .ok (version, digest)
  request : r =
    { unsignedRequest row related r.expiresAt r.createdAt r.updatedAt r.resolvedAt with
      signing := some ⟨version,
        recipientsCommitment P.toExternals related.recipients row.recipientSalt, digest⟩ }

section

variable {P} {row : RequestRow} {related : RelatedRows} {r : DecisionRequest}
  {version digest : String}

theorem ReadsAs.id (h : ReadsAs P row related r version digest) : r.id = row.id := by
  rw [h.request]
  rfl

theorem ReadsAs.status (h : ReadsAs P row related r version digest) : r.status = row.status := by
  rw [h.request]
  rfl

theorem ReadsAs.decisionResolution (h : ReadsAs P row related r version digest) :
    r.decisionResolution = row.decisionResolution := by
  rw [h.request]
  rfl

theorem ReadsAs.recipients (h : ReadsAs P row related r version digest) :
    r.recipients = related.recipients := by
  rw [h.request]
  rfl

theorem ReadsAs.callbackUrl (h : ReadsAs P row related r version digest) :
    r.callbackUrl = row.callbackUrl := by
  rw [h.request]
  rfl

end

theorem requestFromRows_eq_ok {row : RequestRow} {related : RelatedRows} {r : DecisionRequest} :
    requestFromRows P row related = .ok r ↔
      ∃ version digest, ReadsAs P row related r version digest := by
  simp only [requestFromRows, bind_eq_ok, parseTime_eq_ok, parseOptionalTime_eq_ok, mapError_eq_ok,
    pure_eq_ok]
  constructor
  · rintro ⟨expiresAt, he, createdAt, hc, updatedAt, hu, resolvedAt, hr, ⟨version, digest⟩, hd, rfl⟩
    exact ⟨version, digest, he, hc, hu, hr, hd, rfl⟩
  · rintro ⟨version, digest, h⟩
    exact ⟨_, h.expiresAt, _, h.createdAt, _, h.updatedAt, _, h.resolvedAt, _, h.issued,
      h.request.symm⟩

theorem readRequest_eq_ok {db : Db} {id : String} {r : DecisionRequest} :
    readRequest P db id = .ok r ↔
      ∃ row version digest, db.requests.get? id = some row ∧
        ReadsAs P row (db.relatedOf id) r version digest := by
  simp only [readRequest, bind_eq_ok, orElse_eq_ok, requestFromRows_eq_ok]
  constructor
  · rintro ⟨row, hrow, version, digest, h⟩
    exact ⟨row, version, digest, hrow, h⟩
  · rintro ⟨row, version, digest, hrow, h⟩
    exact ⟨row, hrow, version, digest, h⟩

/-- A request carries the id it was read by. -/
theorem id_of_readRequest {db : Db} {id : String} {r : DecisionRequest}
    (h : readRequest P db id = .ok r) : r.id = id := by
  obtain ⟨row, version, digest, hrow, hreads⟩ := (readRequest_eq_ok P).mp h
  rw [hreads.id]
  exact Table.key_of_get? hrow

end Nod.Server
