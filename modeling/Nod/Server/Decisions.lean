import Nod.Server.Signing

/-
  Recording a decision (`db/requests/decisions.rs`): one transaction that reads the request,
  applies the answer policy, checks actor, expiry, option, status and signature, burns the nonce,
  stores the decision, appends to the journal and commits.
  Proved: `transactional_recordDecision`, and `recorded_of_eval`, everything an accepted
  submission has been checked for and has written.
-/

namespace Nod.Server

open Lib Nod.Proto

variable (P : Packages)

structure DecisionSubmission where
  requestId : String
  optionId : String
  actorDevice : Option Device
  actorUserId : Option String
  decision : SubmitDecisionRequest
  deriving DecidableEq

/-! ## Checks -/

/-- A value card takes a typed answer of a device under the v2 payload; an ordinary card takes
    neither. -/
def answerPolicy (request : DecisionRequest) (submission : DecisionSubmission) :
    Except ApiError Unit :=
  let submitted := submission.decision
  match request.answerField with
  | some field => do
    refuseIf
      (submission.optionId = "__nod_value_open" ∨ submission.actorDevice = none ∨
        submission.actorUserId ≠ submission.actorDevice.map Device.userId)
      (ApiError.badRequest
        "value decisions require an authenticated keyed device and real outcome")
    field.validate.mapError .badRequest
    let answer ← orElse (.badRequest "explicit answer_value required") submitted.answerValue
    (field.validateValue answer).mapError .badRequest
    refuseIf (∃ text ∈ submitted.text, 16384 < (Text.trim text).utf8ByteSize)
      (ApiError.badRequest "notes exceed 16384 bytes")
    refuseIf
      ((submitted.signature.bind DecisionSignature.payloadVersion) ≠
        some valueDecisionPayloadVersion)
      (ApiError.badRequest "nod-decision-v2 signature required")
  | none =>
    refuseIf
      (submitted.answerValue ≠ none ∨
        (submitted.signature.bind DecisionSignature.payloadVersion) ≠ none)
      (.badRequest "ordinary request does not accept value payload")

def deviceActive (id : String) (db : Db) : Bool :=
  match db.devices.get? id with
  | some device => device.revokedAt = none
  | none => false

def checkActive (actorDevice : Option Device) : Sql Unit :=
  match actorDevice with
  | some device => do
    let active ← Prog.query (deviceActive device.id)
    Prog.lift (refuseIf (active = false) .unauthorized)
  | none => pure ()

def checkRecipient (request : DecisionRequest) (actorUserId : Option String) :
    Except ApiError Unit :=
  refuseIf (∃ userId ∈ actorUserId, userId ∉ request.recipients) .forbidden

/-- The sweep owns the transition to expired; a late decision is only refused. -/
def checkExpiry (request : DecisionRequest) (now : DateTime) : Except ApiError Unit :=
  refuseIf (∃ expiresAt ∈ request.expiresAt, expiresAt ≤ now) (.conflict "request has expired")

def chooseOption (request : DecisionRequest) (optionId : String) : Except ApiError RequestOption :=
  orElse .notFound
    ((request.options.find? fun option => option.id = optionId).or
      (implicitDismissOption request optionId))

/-! ## The signature and its nonce -/

/-- `INSERT OR IGNORE`: a used nonce is left alone, a missing device is an error. -/
def insertNonce (row : NonceRow) (db : Db) : Option (Bool × Db) :=
  if db.nonces.get? row.key ≠ none then some (false, db)
  else if db.devices.get? row.deviceId = none then none
  else (db.nonces.insert? row).map fun nonces => (true, { db with nonces := nonces })

def insertDecisionNonce (deviceId keyId nonce now : String) : Sql Unit := do
  let inserted ← Prog.onTx
    (insertNonce { deviceId := deviceId, keyId := keyId, nonce := nonce, usedAt := now })
  Prog.lift (refuseIf (inserted = false)
    (.conflict "decision signature nonce has already been used"))

def hasText (value : Option String) : Bool :=
  match value with
  | some text => Text.trim text ≠ ""
  | none => false

/-- The record kept with a decision. -/
def signatureRecord (actor : Device) (provided : DecisionSignature) (requestDigest payload : String) :
    DecisionSignatureRecord :=
  { payloadVersion := provided.payloadVersion, keyId := provided.keyId
    algorithm := provided.algorithm, nonce := provided.nonce, signedAt := provided.signedAt
    requestDigest, signingPayload := payload, signature := provided.signature, verified := true
    publicKey := actor.signingPublicKey }

/-- The nonce is recorded after the signature has been verified. -/
def verifiedDecisionSignature (request : DecisionRequest) (option : RequestOption)
    (actorDevice : Option Device) (text : Option String) (provided : Option DecisionSignature)
    (answer : Option AnswerValue) (now : String) : Sql (Option DecisionSignatureRecord) :=
  match actorDevice with
  | none => do
    Prog.lift (refuseIf (provided ≠ none)
      (.badRequest "decision signatures require a device actor"))
    pure none
  | some actor => do
    Prog.lift (refuseIf
      (hasText actor.signingPublicKey = false ∨ hasText actor.signingKeyId = false)
      (.badRequest "device does not have a registered signing key"))
    let provided ← Prog.lift (orElse (.badRequest "signed decision payload is required") provided)
    let (requestDigest, payload) ← Prog.lift
      (verifyValueDecisionSignature P request option actor text provided answer)
    insertDecisionNonce actor.id provided.keyId provided.nonce now
    pure (some (signatureRecord actor provided requestDigest payload))

/-! ## Storing the decision -/

/-- `INSERT OR IGNORE`: a second answer is left out, a missing request or user is an error. -/
def insertUserDecision (row : UserDecisionRow) (db : Db) : Option (Bool × Db) :=
  if db.userDecisions.get? row.key ≠ none then some (false, db)
  else if db.requests.get? row.requestId = none ∨ db.users.get? row.userId = none then none
  else
    (db.userDecisions.insert? row).map fun userDecisions =>
      (true, { db with userDecisions := userDecisions })

def countRecipients (id : String) (db : Db) : Nat :=
  db.recipients.rows.countP fun r => r.requestId = id

def countUserDecisions (id : String) (db : Db) : Nat :=
  db.userDecisions.rows.countP fun r => r.requestId = id

/-- `UPDATE requests … WHERE p`, with the number of rows it reaches. -/
def updateRequests (p : RequestRow → Bool) (f : RequestRow → RequestRow)
    (hf : ∀ r, (f r).id = r.id) (db : Db) : Option (Nat × Db) :=
  some (db.requests.rows.countP p, { db with requests := db.requests.update p f hf })

def isPendingRow (id : String) (r : RequestRow) : Bool := r.id = id && r.status = .pending

def resolvedRow (decision : Option Decision) (at_ : String) (r : RequestRow) : RequestRow :=
  { r with
    status := .resolved, decision := decision.or r.decision, resolvedAt := some at_
    updatedAt := at_ }

/-- One recipient's answer; the last one resolves the request. -/
def storeUserDecision (id : String) (actorUserId : Option String) (decision : Decision)
    (at_ : String) : Sql Unit := do
  let userId ← Prog.lift
    (orElse (.badRequest "per-user options require a user actor") actorUserId)
  let inserted ← Prog.onTx (insertUserDecision
    { requestId := id, userId := userId, decision := decision, resolvedAt := at_ })
  Prog.lift (refuseIf (inserted = false)
    (.conflict "request was already handled by this user"))
  let recipientCount ← Prog.query (countRecipients id)
  let decisionCount ← Prog.query (countUserDecisions id)
  if 0 < recipientCount ∧ recipientCount ≤ decisionCount then
    let _ ← Prog.onTx (updateRequests (isPendingRow id) (resolvedRow none at_) fun _ => rfl)
  else
    let _ ← Prog.onTx (updateRequests (fun r => r.id = id)
      (fun r => { r with updatedAt := at_ }) fun _ => rfl)

/-- The one answer of a shared request. -/
def storeSharedDecision (id : String) (decision : Decision) (at_ : String) : Sql Unit := do
  let updated ← Prog.onTx
    (updateRequests (isPendingRow id) (resolvedRow (some decision) at_) fun _ => rfl)
  Prog.lift (refuseIf (updated = 0) (.conflict "request was already handled"))

def answerRecorded : String := "nod.answer.recorded"

/-- The decision a submission turns into. -/
def decisionOf (submission : DecisionSubmission) (option : RequestOption)
    (signature : Option DecisionSignatureRecord) (resolvedAt : DateTime) : Decision :=
  { answerValue := submission.decision.answerValue, requestId := submission.requestId
    optionId := option.id, optionKind := option.kind, optionLabel := option.label
    text := trimmedNotes submission.decision.text, actorUserId := submission.actorUserId
    actorDeviceId := submission.actorDevice.map Device.id, signature, resolvedAt }

def recordDecision (env : Env) (submission : DecisionSubmission) : Sql DecisionRequest := do
  Prog.beginTx
  let request ← getRequestOn P submission.requestId
  Prog.lift (answerPolicy request submission)
  checkActive submission.actorDevice
  Prog.lift (checkRecipient request submission.actorUserId)
  Prog.lift (checkExpiry request (env.now 0))
  let option ← Prog.lift (chooseOption request submission.optionId)
  Prog.lift (refuseIf (request.status ≠ .pending) (.conflict "request is no longer pending"))
  let signature ← verifiedDecisionSignature P request option submission.actorDevice
    (trimmedNotes submission.decision.text) submission.decision.signature
    submission.decision.answerValue (env.nowString 2)
  let decision := decisionOf submission option signature (env.now 1)
  if request.decisionResolution = .perUser then
    storeUserDecision submission.requestId submission.actorUserId decision (env.nowString 1)
  else
    storeSharedDecision submission.requestId decision (env.nowString 1)
  let resolved ← getRequestOn P submission.requestId
  appendLifecycleOn (env.newId 0) (env.nowString 3) resolved answerRecorded (some decision)
  Prog.commitTx
  pure resolved

/-! ## One transaction -/

theorem txOnly_checkActive (actorDevice : Option Device) :
    Prog.TxOnly (checkActive actorDevice) := by
  cases actorDevice with
  | none => exact Prog.txOnly_pure _
  | some device => exact Prog.txOnly_bind (Prog.txOnly_query _) fun _ => Prog.txOnly_lift _

theorem txOnly_verifiedDecisionSignature (request : DecisionRequest) (option : RequestOption)
    (actorDevice : Option Device) (text : Option String) (provided : Option DecisionSignature)
    (answer : Option AnswerValue) (now : String) :
    Prog.TxOnly
      (verifiedDecisionSignature P request option actorDevice text provided answer now) := by
  cases actorDevice with
  | none => exact Prog.txOnly_bind (Prog.txOnly_lift _) fun _ => Prog.txOnly_pure _
  | some actor =>
    refine Prog.txOnly_bind (Prog.txOnly_lift _) fun _ => ?_
    refine Prog.txOnly_bind (Prog.txOnly_lift _) fun provided => ?_
    refine Prog.txOnly_bind (Prog.txOnly_lift _) fun _ => ?_
    refine Prog.txOnly_bind ?_ fun _ => Prog.txOnly_pure _
    exact Prog.txOnly_bind (Prog.txOnly_onTx _) fun _ => Prog.txOnly_lift _

theorem txOnly_storeUserDecision (id : String) (actorUserId : Option String)
    (decision : Decision) (at_ : String) :
    Prog.TxOnly (storeUserDecision id actorUserId decision at_) := by
  refine Prog.txOnly_bind (Prog.txOnly_lift _) fun userId => ?_
  refine Prog.txOnly_bind (Prog.txOnly_onTx _) fun inserted => ?_
  refine Prog.txOnly_bind (Prog.txOnly_lift _) fun _ => ?_
  refine Prog.txOnly_bind (Prog.txOnly_query _) fun recipientCount => ?_
  refine Prog.txOnly_bind (Prog.txOnly_query _) fun decisionCount => ?_
  split
  · exact Prog.txOnly_bind (Prog.txOnly_onTx _) fun _ => Prog.txOnly_pure _
  · exact Prog.txOnly_bind (Prog.txOnly_onTx _) fun _ => Prog.txOnly_pure _

theorem txOnly_storeSharedDecision (id : String) (decision : Decision) (at_ : String) :
    Prog.TxOnly (storeSharedDecision id decision at_) :=
  Prog.txOnly_bind (Prog.txOnly_onTx _) fun _ => Prog.txOnly_lift _

theorem transactional_recordDecision (env : Env) (submission : DecisionSubmission) :
    Prog.Transactional (recordDecision P env submission) := by
  refine Prog.transactional_begin ?_
  refine Prog.committing_bind (txOnly_getRequestOn P _) fun request => ?_
  refine Prog.committing_bind (Prog.txOnly_lift _) fun _ => ?_
  refine Prog.committing_bind (txOnly_checkActive _) fun _ => ?_
  refine Prog.committing_bind (Prog.txOnly_lift _) fun _ => ?_
  refine Prog.committing_bind (Prog.txOnly_lift _) fun _ => ?_
  refine Prog.committing_bind (Prog.txOnly_lift _) fun option => ?_
  refine Prog.committing_bind (Prog.txOnly_lift _) fun _ => ?_
  refine Prog.committing_bind (txOnly_verifiedDecisionSignature P _ _ _ _ _ _ _) fun signature => ?_
  have hfinish : Prog.Committing (do
      let resolved ← getRequestOn P submission.requestId
      appendLifecycleOn (env.newId 0) (env.nowString 3) resolved answerRecorded
        (some (decisionOf submission option signature (env.now 1)))
      Prog.commitTx
      pure resolved) := by
    refine Prog.committing_bind (txOnly_getRequestOn P _) fun resolved => ?_
    refine Prog.committing_bind (txOnly_appendLifecycleOn _ _ _ _ _) fun _ => ?_
    exact Prog.committing_commitTx _
  dsimp only
  split
  · exact Prog.committing_bind (txOnly_storeUserDecision _ _ _ _) fun _ => hfinish
  · exact Prog.committing_bind (txOnly_storeSharedDecision _ _ _) fun _ => hfinish

/-! ## What an accepted submission has been checked for and has written -/

/-- The checks that only read. -/
structure Checked (env : Env) (submission : DecisionSubmission) (db : Db)
    (request : DecisionRequest) (option : RequestOption) : Prop where
  read : readRequest P db submission.requestId = .ok request
  policy : answerPolicy request submission = .ok ()
  active : ∀ device, submission.actorDevice = some device → deviceActive device.id db = true
  recipient : ∀ userId, submission.actorUserId = some userId → userId ∈ request.recipients
  unexpired : ∀ t, request.expiresAt = some t → ¬ t ≤ env.now 0
  option : chooseOption request submission.optionId = .ok option
  pending : request.status = .pending

/-- The nonce row of a submission's signature. -/
def nonceRow (actor : Device) (provided : DecisionSignature) (now : String) : NonceRow :=
  { deviceId := actor.id, keyId := provided.keyId, nonce := provided.nonce, usedAt := now }

/-- A device decision is signed and burns its nonce; without a device there is no signature. -/
inductive Signed (env : Env) (submission : DecisionSubmission) (request : DecisionRequest)
    (option : RequestOption) (db : Db) : Option DecisionSignatureRecord → Db → Prop
  | internal : submission.actorDevice = none → submission.decision.signature = none →
      Signed env submission request option db none db
  | device (actor : Device) (provided : DecisionSignature) (payload : String)
      (nonces : Table NonceRow.key) : submission.actorDevice = some actor →
      submission.decision.signature = some provided → hasText actor.signingPublicKey = true →
      hasText actor.signingKeyId = true →
      SignatureValid P request option actor (trimmedNotes submission.decision.text) provided
        submission.decision.answerValue payload →
      db.devices.get? actor.id ≠ none →
      db.nonces.insert? (nonceRow actor provided (env.nowString 2)) = some nonces →
      Signed env submission request option db
        (some (signatureRecord actor provided provided.requestDigest payload))
        { db with nonces := nonces }

/-- The row an answer of a shared request leaves. -/
def sharedAnswered (id : String) (decision : Decision) (at_ : String) (db : Db) : Db :=
  { db with
    requests := db.requests.update (isPendingRow id) (resolvedRow (some decision) at_) fun _ => rfl }

/-- The rows one recipient's answer leaves. -/
def userAnswered (id : String) (at_ : String) (userDecisions : Table UserDecisionRow.key)
    (db : Db) : Db :=
  let db := { db with userDecisions := userDecisions }
  { db with
    requests :=
      if 0 < countRecipients id db ∧ countRecipients id db ≤ countUserDecisions id db then
        db.requests.update (isPendingRow id) (resolvedRow none at_) fun _ => rfl
      else db.requests.update (fun r => r.id = id) (fun r => { r with updatedAt := at_ })
        fun _ => rfl }

/-- What storing a decision writes. -/
inductive Stored (id : String) (actorUserId : Option String) (decision : Decision) (at_ : String)
    (db : Db) : DecisionResolution → Db → Prop
  | shared : (∃ r ∈ db.requests.rows, isPendingRow id r = true) →
      Stored id actorUserId decision at_ db .shared (sharedAnswered id decision at_ db)
  | user (userId : String) (userDecisions : Table UserDecisionRow.key) :
      actorUserId = some userId → db.requests.get? id ≠ none → db.users.get? userId ≠ none →
      db.userDecisions.insert? ⟨id, userId, decision, at_⟩ = some userDecisions →
      Stored id actorUserId decision at_ db .perUser (userAnswered id at_ userDecisions db)

theorem insertNonce_eq_true {row : NonceRow} {db db' : Db} :
    insertNonce row db = some (true, db') ↔
      db.devices.get? row.deviceId ≠ none ∧
        ∃ nonces, db.nonces.insert? row = some nonces ∧ db' = { db with nonces := nonces } := by
  unfold insertNonce
  split
  · rename_i h
    constructor
    · intro h'
      simp at h'
    · rintro ⟨_, nonces, hins, _⟩
      exact absurd (Table.insert?_eq_some.mp hins).1 h
  · split
    · rename_i h
      simp [h]
    · rename_i h
      simp only [Option.map_eq_some_iff, Prod.mk.injEq, true_and]
      constructor
      · rintro ⟨nonces, hins, rfl⟩
        exact ⟨h, nonces, hins, rfl⟩
      · rintro ⟨_, nonces, hins, rfl⟩
        exact ⟨nonces, hins, rfl⟩

theorem insertUserDecision_eq_true {row : UserDecisionRow} {db db' : Db} :
    insertUserDecision row db = some (true, db') ↔
      db.requests.get? row.requestId ≠ none ∧ db.users.get? row.userId ≠ none ∧
        ∃ userDecisions, db.userDecisions.insert? row = some userDecisions ∧
          db' = { db with userDecisions := userDecisions } := by
  unfold insertUserDecision
  split
  · rename_i h
    constructor
    · intro h'
      simp at h'
    · rintro ⟨_, _, userDecisions, hins, _⟩
      exact absurd (Table.insert?_eq_some.mp hins).1 h
  · split
    · rename_i h
      constructor
      · intro h'
        cases h'
      · rintro ⟨h1, h2, _⟩
        rcases h with h | h
        · exact absurd h h1
        · exact absurd h h2
    · rename_i h
      rw [not_or] at h
      simp only [Option.map_eq_some_iff, Prod.mk.injEq, true_and]
      constructor
      · rintro ⟨userDecisions, hins, rfl⟩
        exact ⟨h.1, h.2, userDecisions, hins, rfl⟩
      · rintro ⟨_, _, userDecisions, hins, rfl⟩
        exact ⟨userDecisions, hins, rfl⟩

theorem eval_checkActive_eq_ok {actorDevice : Option Device} {db db' : Db} {u : Unit} :
    Prog.eval databaseError (checkActive actorDevice) db = .ok (u, db') ↔
      (∀ device, actorDevice = some device → deviceActive device.id db = true) ∧ db = db' := by
  cases actorDevice with
  | none => simp [checkActive]
  | some device => simp [checkActive, Prog.eval_bind_eq_ok]

theorem eval_verifiedDecisionSignature_eq_ok {env : Env} {submission : DecisionSubmission}
    {request : DecisionRequest} {option : RequestOption} {db db' : Db}
    {signature : Option DecisionSignatureRecord} :
    Prog.eval databaseError
        (verifiedDecisionSignature P request option submission.actorDevice
          (trimmedNotes submission.decision.text) submission.decision.signature
          submission.decision.answerValue (env.nowString 2)) db = .ok (signature, db') ↔
      Signed P env submission request option db signature db' := by
  cases hactor : submission.actorDevice with
  | none =>
    simp only [verifiedDecisionSignature, Prog.eval_bind_eq_ok, Prog.eval_lift_eq_ok,
      refuseIf_eq_ok, not_not, Prog.eval_pure, Except.ok.injEq, Prod.mk.injEq]
    constructor
    · rintro ⟨_, _, ⟨hnone, rfl⟩, rfl, rfl⟩
      exact .internal hactor hnone
    · rintro (⟨_, hnone⟩ | ⟨actor, _, _, _, hsome⟩)
      · exact ⟨(), db, ⟨hnone, rfl⟩, rfl, rfl⟩
      · rw [hactor] at hsome
        cases hsome
  | some actor =>
    simp only [verifiedDecisionSignature, insertDecisionNonce, Prog.eval_bind_eq_ok,
      Prog.eval_lift_eq_ok, Prog.eval_onTx_eq_ok, refuseIf_eq_ok, orElse_eq_ok, Prog.eval_pure,
      Except.ok.injEq, Prod.mk.injEq, verifyValueDecisionSignature_eq_ok, not_or,
      Bool.not_eq_false]
    constructor
    · rintro ⟨_, _, ⟨⟨hpub, hkey⟩, rfl⟩, provided, _, ⟨hprov, rfl⟩, ⟨_, payload⟩, _,
        ⟨⟨hvalid, rfl⟩, rfl⟩, _, _, ⟨inserted, _, hins, rfl, rfl⟩, rfl, rfl⟩
      obtain ⟨hdev, nonces, hnonces, rfl⟩ := insertNonce_eq_true.mp hins
      exact .device actor provided payload nonces hactor hprov hpub hkey hvalid hdev hnonces
    · rintro (⟨hnone⟩ | ⟨actor', provided, payload, nonces, hsome, hprov, hpub, hkey, hvalid,
        hdev, hins⟩)
      · rw [hactor] at hnone
        cases hnone
      · rw [hactor] at hsome
        cases hsome
        exact ⟨(), db, ⟨⟨hpub, hkey⟩, rfl⟩, provided, db, ⟨hprov, rfl⟩,
          (provided.requestDigest, payload), db, ⟨⟨hvalid, rfl⟩, rfl⟩, (), _,
          ⟨true, _, insertNonce_eq_true.mpr ⟨hdev, nonces, hins, rfl⟩, rfl, rfl⟩, rfl, rfl⟩

theorem eval_storeSharedDecision_eq_ok {id at_ : String} {decision : Decision} {db db' : Db} :
    Prog.eval databaseError (storeSharedDecision id decision at_) db = .ok ((), db') ↔
      (∃ r ∈ db.requests.rows, isPendingRow id r = true) ∧
        db' = sharedAnswered id decision at_ db := by
  simp only [storeSharedDecision, Prog.eval_bind_eq_ok, Prog.eval_onTx_eq_ok, updateRequests,
    Option.some.injEq, Prog.eval_lift_eq_ok, refuseIf_eq_ok, Prod.mk.injEq, sharedAnswered]
  constructor
  · rintro ⟨n, s, ⟨rfl, rfl⟩, hn, rfl⟩
    exact ⟨List.countP_pos_iff.mp (Nat.pos_of_ne_zero hn), rfl⟩
  · rintro ⟨hpos, rfl⟩
    exact ⟨_, _, ⟨rfl, rfl⟩, (List.countP_pos_iff.mpr hpos).ne', rfl⟩

theorem eval_storeUserDecision_eq_ok {id at_ : String} {actorUserId : Option String}
    {decision : Decision} {db db' : Db} :
    Prog.eval databaseError (storeUserDecision id actorUserId decision at_) db = .ok ((), db') ↔
      ∃ userId userDecisions, actorUserId = some userId ∧ db.requests.get? id ≠ none ∧
        db.users.get? userId ≠ none ∧
        db.userDecisions.insert? ⟨id, userId, decision, at_⟩ = some userDecisions ∧
        db' = userAnswered id at_ userDecisions db := by
  simp only [storeUserDecision, Prog.eval_bind_eq_ok, Prog.eval_onTx_eq_ok, Prog.eval_lift_eq_ok,
    refuseIf_eq_ok, orElse_eq_ok, Prog.eval_query, Except.ok.injEq, Prod.mk.injEq,
    Bool.not_eq_false]
  constructor
  · rintro ⟨userId, _, ⟨huser, rfl⟩, _, s, hins, _, _, ⟨rfl, rfl⟩, rc, _, ⟨rfl, rfl⟩, dc, _,
      ⟨rfl, rfl⟩, hlast⟩
    obtain ⟨hreq, hu, userDecisions, hstored, rfl⟩ := insertUserDecision_eq_true.mp hins
    refine ⟨userId, userDecisions, huser, hreq, hu, hstored, ?_⟩
    unfold userAnswered
    split at hlast
    · rename_i hclose
      simp only [Prog.eval_bind_eq_ok, Prog.eval_onTx_eq_ok, updateRequests, Option.some.injEq,
        Prod.mk.injEq, Prog.eval_pure, Except.ok.injEq, true_and] at hlast
      obtain ⟨_, _, ⟨_, rfl⟩, rfl⟩ := hlast
      dsimp only
      rw [if_pos hclose]
    · rename_i hopen
      simp only [Prog.eval_bind_eq_ok, Prog.eval_onTx_eq_ok, updateRequests, Option.some.injEq,
        Prod.mk.injEq, Prog.eval_pure, Except.ok.injEq, true_and] at hlast
      obtain ⟨_, _, ⟨_, rfl⟩, rfl⟩ := hlast
      dsimp only
      rw [if_neg hopen]
  · rintro ⟨userId, userDecisions, huser, hreq, hu, hins, rfl⟩
    refine ⟨userId, db, ⟨huser, rfl⟩, true, _,
      insertUserDecision_eq_true.mpr ⟨hreq, hu, userDecisions, hins, rfl⟩, (), _, ⟨rfl, rfl⟩, _, _,
      ⟨rfl, rfl⟩, _, _, ⟨rfl, rfl⟩, ?_⟩
    unfold userAnswered
    split
    · rename_i hclose
      simp only [Prog.eval_bind_eq_ok, Prog.eval_onTx_eq_ok, updateRequests, Option.some.injEq,
        Prod.mk.injEq, Prog.eval_pure, Except.ok.injEq, true_and]
      refine ⟨_, _, ⟨rfl, rfl⟩, ?_⟩
      rw [if_pos hclose]
    · rename_i hopen
      simp only [Prog.eval_bind_eq_ok, Prog.eval_onTx_eq_ok, updateRequests, Option.some.injEq,
        Prod.mk.injEq, Prog.eval_pure, Except.ok.injEq, true_and]
      refine ⟨_, _, ⟨rfl, rfl⟩, ?_⟩
      rw [if_neg hopen]

/-- Storing a decision the way the request's resolution asks for. -/
theorem eval_store_eq_ok {resolution : DecisionResolution} {id at_ : String}
    {actorUserId : Option String} {decision : Decision} {db db' : Db} {u : Unit} :
    Prog.eval databaseError
        (if resolution = .perUser then storeUserDecision id actorUserId decision at_
          else storeSharedDecision id decision at_) db = .ok (u, db') ↔
      Stored id actorUserId decision at_ db resolution db' := by
  cases resolution with
  | shared =>
    rw [if_neg (by decide), eval_storeSharedDecision_eq_ok]
    constructor
    · rintro ⟨hpending, rfl⟩
      exact .shared hpending
    · rintro ⟨hpending⟩
      exact ⟨hpending, rfl⟩
  | perUser =>
    rw [if_pos rfl, eval_storeUserDecision_eq_ok]
    constructor
    · rintro ⟨userId, userDecisions, huser, hreq, hu, hins, rfl⟩
      exact .user userId userDecisions huser hreq hu hins
    · rintro (_ | ⟨userId, userDecisions, huser, hreq, hu, hins⟩)
      exact ⟨userId, userDecisions, huser, hreq, hu, hins, rfl⟩

/-- A submission is accepted when its checks pass, its signature and nonce are good, the decision
    can be stored and the journal takes it. -/
theorem eval_recordDecision_eq_ok {env : Env} {submission : DecisionSubmission} {db db' : Db}
    {resolved : DecisionRequest} :
    Prog.eval databaseError (recordDecision P env submission) db = .ok (resolved, db') ↔
      ∃ request option signature signed stored,
        Checked P env submission db request option ∧
        Signed P env submission request option db signature signed ∧
        Stored submission.requestId submission.actorUserId
          (decisionOf submission option signature (env.now 1)) (env.nowString 1) signed
          request.decisionResolution stored ∧
        readRequest P stored submission.requestId = .ok resolved ∧
        Prog.eval databaseError (appendLifecycleOn (env.newId 0) (env.nowString 3) resolved
          answerRecorded (some (decisionOf submission option signature (env.now 1)))) stored =
            .ok ((), db') := by
  have hstore : ∀ (request : DecisionRequest) (decision : Decision) (r : Sql DecisionRequest),
      (if request.decisionResolution = .perUser then
        storeUserDecision submission.requestId submission.actorUserId decision (env.nowString 1) >>=
          fun _ => r
      else storeSharedDecision submission.requestId decision (env.nowString 1) >>= fun _ => r) =
      (if request.decisionResolution = .perUser then
        storeUserDecision submission.requestId submission.actorUserId decision (env.nowString 1)
      else storeSharedDecision submission.requestId decision (env.nowString 1)) >>= fun _ => r := by
    intro request decision r
    split <;> rfl
  simp only [recordDecision, hstore, Prog.eval_bind_eq_ok, Prog.eval_beginTx, Except.ok.injEq,
    Prod.mk.injEq, true_and, eval_getRequestOn_eq_ok, Prog.eval_lift_eq_ok, eval_checkActive_eq_ok,
    refuseIf_eq_ok, not_not, eval_verifiedDecisionSignature_eq_ok, eval_store_eq_ok,
    Prog.eval_commitTx, Prog.eval_pure]
  constructor
  · rintro ⟨_, _, rfl, request, _, ⟨hread, rfl⟩, _, _, ⟨hpolicy, rfl⟩, _, _, ⟨hactive, rfl⟩, _, _,
      ⟨hrecipient, rfl⟩, _, _, ⟨hexpiry, rfl⟩, option, _, ⟨hoption, rfl⟩, _, _, ⟨hpending, rfl⟩,
      signature, signed, hsigned, _, stored, hstored, _, _, ⟨hresolved, rfl⟩, _, _, happend, _, _, rfl,
      rfl, rfl⟩
    refine ⟨request, option, signature, signed, _, ⟨hread, hpolicy, hactive, ?_, ?_, hoption,
      hpending⟩, hsigned, hstored, hresolved, happend⟩
    · intro userId huser
      by_contra hnot
      exact (refuseIf_eq_ok.mp hrecipient) ⟨userId, huser, hnot⟩
    · intro t ht hle
      exact (refuseIf_eq_ok.mp hexpiry) ⟨t, ht, hle⟩
  · rintro ⟨request, option, signature, signed, stored, hchecked, hsigned, hstored, hresolved,
      happend⟩
    have hrecipient : checkRecipient request submission.actorUserId = .ok () :=
      refuseIf_eq_ok.mpr (by
        rintro ⟨userId, huser, hnot⟩
        exact hnot (hchecked.recipient userId huser))
    have hexpiry : checkExpiry request (env.now 0) = .ok () :=
      refuseIf_eq_ok.mpr (by
        rintro ⟨t, ht, hle⟩
        exact hchecked.unexpired t ht hle)
    exact ⟨(), db, rfl, request, db, ⟨hchecked.read, rfl⟩, (), db, ⟨hchecked.policy, rfl⟩, (), db,
      ⟨hchecked.active, rfl⟩, (), db, ⟨hrecipient, rfl⟩, (), db, ⟨hexpiry, rfl⟩, option, db,
      ⟨hchecked.option, rfl⟩, (), db, ⟨hchecked.pending, rfl⟩, signature, signed, hsigned, (),
      stored, hstored, resolved, stored, ⟨hresolved, rfl⟩, (), db', happend, (), db', rfl, rfl, rfl⟩

/-- An accepted submission from the database before to the one after. -/
theorem recorded_of_eval {env : Env} {submission : DecisionSubmission} {db db' : Db}
    {resolved : DecisionRequest}
    (h : Prog.eval databaseError (recordDecision P env submission) db = .ok (resolved, db')) :
    ∃ request option signature signed stored row node,
      Checked P env submission db request option ∧
      Signed P env submission request option db signature signed ∧
      Stored submission.requestId submission.actorUserId
        (decisionOf submission option signature (env.now 1)) (env.nowString 1) signed
        request.decisionResolution stored ∧
      readRequest P stored submission.requestId = .ok resolved ∧
      Appended (env.newId 0) (env.nowString 3) resolved answerRecorded
        (some (decisionOf submission option signature (env.now 1))) stored db' row node := by
  obtain ⟨request, option, signature, signed, stored, hchecked, hsigned, hstored, hresolved,
    happend⟩ := (eval_recordDecision_eq_ok P).mp h
  obtain ⟨row, node, happended⟩ := appended_of_eval happend
  exact ⟨request, option, signature, signed, stored, row, node, hchecked, hsigned, hstored, hresolved,
    happended⟩

end Nod.Server
