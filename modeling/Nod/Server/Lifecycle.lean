import Nod.Server.Read

/-
  The lifecycle journal and the callback outbox (`db/lifecycle.rs`, `views.rs`). A mutation of a
  request ends with `appendLifecycleOn`, which raises the request's revision, appends one event
  and, for an answer to a request with a callback, queues one delivery.
  Proved: what a successful append has done (`eval_appendLifecycleOn_eq_ok`).
-/

namespace Nod.Server

open Lib Nod.Proto

/-! ## Origins -/

def Origin.validText (s : String) (max : Nat) : Bool :=
  s ≠ "" && s.utf8ByteSize ≤ max && !s.toList.any Text.isControl

def startsWith (lead s : String) : Bool := lead.toList.isPrefixOf s.toList

def Origin.validate (origin : Origin) : Except ApiError Unit :=
  refuseIf
    (Origin.validText origin.session 256 = false ∨ startsWith "ses_" origin.session = false ∨
      origin.session.utf8ByteSize ≤ 4 ∨ Origin.validText origin.directory 4096 = false ∨
      startsWith "/" origin.directory = false ∨
      ∃ s ∈ origin.reference, Origin.validText s 512 = false)
    (.badRequest "invalid integration origin")

def originOn (id : String) : Sql (Option Origin) :=
  Prog.query fun db => (db.origins.get? id).map OriginRow.origin

/-! ## Callback payload -/

def CallbackPayload.fromRequest (request : DecisionRequest) : CallbackPayload :=
  { requestId := request.id, channelId := request.channelId, status := request.status
    decision := request.decision, decisions := request.userDecisions
    decisionResolution := request.decisionResolution }

/-! ## Statements -/

/-- Raise the revision of a row; a request that is not there is an error. -/
def bumpRevision (id : String) (db : Db) : Option (Nat × Db) :=
  (db.requests.get? id).map fun row =>
    (row.revision + 1,
      { db with
        requests := db.requests.update (fun r => r.id = id)
          (fun r => { r with revision := r.revision + 1 }) fun _ => rfl })

/-- `revision > 0`, and no other event of this request and revision. -/
def insertEvent (event : EventRow) (db : Db) : Option (Unit × Db) :=
  if event.revision = 0 ∨
      ∃ e ∈ db.events.rows, e.requestId = event.requestId ∧ e.revision = event.revision then none
  else
    (db.events.insert? { event with seq := db.eventSeq + 1 }).map fun events =>
      ((), { db with events := events, eventSeq := db.eventSeq + 1 })

/-- One delivery for each event, of an event that exists. -/
def insertCallback (callback : CallbackRow) (db : Db) : Option (Unit × Db) :=
  if db.events.get? callback.eventId = none ∨
      ∃ c ∈ db.callbacks.rows, c.eventId = callback.eventId then none
  else (db.callbacks.insert? callback).map fun callbacks => ((), { db with callbacks := callbacks })

/-! ## The append -/

def eventEnvelope (eventId now node kind : String) (request : DecisionRequest) (revision : Nat)
    (decision : Option Decision) : EventEnvelope :=
  { id := eventId, source := "nod/" ++ node, kind, time := now, requestId := request.id, revision
    aggregateStatus := request.status, decisionResolution := request.decisionResolution
    decisionId := decision.map fun _ => eventId }

def eventRow (eventId now node kind : String) (request : DecisionRequest) (revision : Nat)
    (creator : Option String) (origin : Option Origin) (decision : Option Decision) : EventRow :=
  let envelope := eventEnvelope eventId now node kind request revision decision
  { seq := 0, eventId, requestId := request.id, channelId := request.channelId, revision, kind
    occurredAt := now, subject := "ev." ++ kind, envelope
    detail :=
      { envelope, channelId := request.channelId, createdByIssuerTokenId := creator, origin
        decision }
    publishedAt := none, streamSeq := none, attempts := 0, nextAttemptAt := now
    leaseToken := none, leaseUntil := none, lastError := none }

def callbackRow (eventId now url : String) (request : DecisionRequest) (revision : Nat) :
    CallbackRow :=
  { deliveryId := eventId ++ ":callback", eventId, requestId := request.id
    requestRevision := revision, url, payload := .fromRequest request, state := "queued"
    attempts := 0, nextAttemptAt := now, leaseToken := none, leaseUntil := none
    deliveredAt := none, lastStatus := none, lastError := none, updatedAt := now }

/-- The delivery an event owes: one for an answer of a request with a callback. -/
def owedCallback (eventId now : String) (request : DecisionRequest) (revision : Nat)
    (decision : Option Decision) : Option CallbackRow :=
  match decision, request.callbackUrl with
  | some _, some url => some (callbackRow eventId now url request revision)
  | _, _ => none

/-- The caller holds the writer transaction and passes the exact accepted decision. -/
def appendLifecycleOn (eventId now : String) (request : DecisionRequest) (kind : String)
    (decision : Option Decision) : Sql Unit := do
  let revision ← Prog.onTx (bumpRevision request.id)
  let creator ← Prog.onTx fun db =>
    (db.requests.get? request.id).map fun row => (row.createdByIssuerTokenId, db)
  let origin ← originOn request.id
  let node ← Prog.onTx fun db => (db.integrationMeta.get? "node_id").map fun row => (row.2, db)
  Prog.onTx (insertEvent (eventRow eventId now node kind request revision creator origin decision))
  match owedCallback eventId now request revision decision with
  | some callback => Prog.onTx (insertCallback callback)
  | none => pure ()

theorem txOnly_appendLifecycleOn (eventId now : String) (request : DecisionRequest)
    (kind : String) (decision : Option Decision) :
    Prog.TxOnly (appendLifecycleOn eventId now request kind decision) := by
  refine Prog.txOnly_bind (Prog.txOnly_onTx _) fun revision => ?_
  refine Prog.txOnly_bind (Prog.txOnly_onTx _) fun creator => ?_
  refine Prog.txOnly_bind (Prog.txOnly_query _) fun origin => ?_
  refine Prog.txOnly_bind (Prog.txOnly_onTx _) fun node => ?_
  refine Prog.txOnly_bind (Prog.txOnly_onTx _) fun _ => ?_
  cases owedCallback eventId now request revision decision with
  | none => exact Prog.txOnly_pure _
  | some callback => exact Prog.txOnly_onTx _

/-! ## What an append has done -/

theorem bumpRevision_eq_some {id : String} {db : Db} {r : Nat × Db} :
    bumpRevision id db = some r ↔
      ∃ row, db.requests.get? id = some row ∧ r = (row.revision + 1,
        { db with
          requests := db.requests.update (fun r => r.id = id)
            (fun r => { r with revision := r.revision + 1 }) fun _ => rfl }) := by
  simp only [bumpRevision, Option.map_eq_some_iff]
  exact exists_congr fun row => and_congr_right fun _ => eq_comm

theorem insertEvent_eq_some {event : EventRow} {db db' : Db} :
    insertEvent event db = some ((), db') ↔
      event.revision ≠ 0 ∧
        (∀ e ∈ db.events.rows, e.requestId = event.requestId → e.revision ≠ event.revision) ∧
        ∃ events, db.events.insert? { event with seq := db.eventSeq + 1 } = some events ∧
          db' = { db with events := events, eventSeq := db.eventSeq + 1 } := by
  unfold insertEvent
  split
  · rename_i h
    rcases h with h | ⟨e, he, hid, hrev⟩
    · simp [h]
    · constructor
      · intro h
        cases h
      · rintro ⟨_, hfree, _⟩
        exact absurd hrev (hfree e he hid)
  · rename_i h
    rw [not_or] at h
    have hfree : ∀ e ∈ db.events.rows, e.requestId = event.requestId →
        e.revision ≠ event.revision := fun e he hid hrev => h.2 ⟨e, he, hid, hrev⟩
    simp only [Option.map_eq_some_iff, Prod.mk.injEq, true_and]
    constructor
    · rintro ⟨events, hins, rfl⟩
      exact ⟨h.1, hfree, events, hins, rfl⟩
    · rintro ⟨_, _, events, hins, rfl⟩
      exact ⟨events, hins, rfl⟩

theorem insertCallback_eq_some {callback : CallbackRow} {db db' : Db} :
    insertCallback callback db = some ((), db') ↔
      db.events.get? callback.eventId ≠ none ∧
        (∀ c ∈ db.callbacks.rows, c.eventId ≠ callback.eventId) ∧
        ∃ callbacks, db.callbacks.insert? callback = some callbacks ∧
          db' = { db with callbacks := callbacks } := by
  unfold insertCallback
  split
  · rename_i h
    constructor
    · intro h
      cases h
    · rintro ⟨hev, hfree, _⟩
      rcases h with h | ⟨c, hc, hid⟩
      · exact absurd h hev
      · exact absurd hid (hfree c hc)
  · rename_i h
    rw [not_or] at h
    have hfree : ∀ c ∈ db.callbacks.rows, c.eventId ≠ callback.eventId :=
      fun c hc hid => h.2 ⟨c, hc, hid⟩
    simp only [Option.map_eq_some_iff, Prod.mk.injEq, true_and]
    constructor
    · rintro ⟨callbacks, hins, rfl⟩
      exact ⟨h.1, hfree, callbacks, hins, rfl⟩
    · rintro ⟨_, _, callbacks, hins, rfl⟩
      exact ⟨callbacks, hins, rfl⟩

/-- The event an append adds to a database. -/
def Db.nextEvent (db : Db) (eventId now node kind : String) (request : DecisionRequest)
    (row : RequestRow) (decision : Option Decision) : EventRow :=
  { eventRow eventId now node kind request (row.revision + 1) row.createdByIssuerTokenId
      ((db.origins.get? request.id).map OriginRow.origin) decision with
    seq := db.eventSeq + 1 }

/-- The tables after an append: one revision, one event, and the delivery it owes. -/
structure Appended (eventId now : String) (request : DecisionRequest) (kind : String)
    (decision : Option Decision) (db db' : Db) (row : RequestRow) (node : String) : Prop where
  stored : db.requests.get? request.id = some row
  named : db.integrationMeta.get? "node_id" = some ("node_id", node)
  unused : ∀ e ∈ db.events.rows, e.requestId = request.id → e.revision ≠ row.revision + 1
  eventFree : db.events.get? eventId = none
  requests : db'.requests = db.requests.update (fun r => r.id = request.id)
    (fun r => { r with revision := r.revision + 1 }) (fun _ => rfl)
  events : db'.events.rows = db.events.rows ++
    [db.nextEvent eventId now node kind request row decision]
  callbacks : db'.callbacks.rows = db.callbacks.rows ++
    (owedCallback eventId now request (row.revision + 1) decision).toList
  rest : db' = { db with
    requests := db'.requests, events := db'.events, eventSeq := db.eventSeq + 1
    callbacks := db'.callbacks }

/-- The bump leaves the creator a row names. -/
theorem get?_bump {db : Db} {id : String} {row : RequestRow}
    (h : db.requests.get? id = some row) :
    (db.requests.update (fun r => r.id = id) (fun r => { r with revision := r.revision + 1 })
      fun _ => rfl).get? id = some { row with revision := row.revision + 1 } := by
  rw [Table.get?_update, h, Option.map_some, if_pos (decide_eq_true (Table.key_of_get? h))]

theorem owedCallback_eventId {eventId now : String} {request : DecisionRequest} {revision : Nat}
    {decision : Option Decision} {callback : CallbackRow}
    (h : owedCallback eventId now request revision decision = some callback) :
    callback.eventId = eventId ∧ callback.deliveryId = eventId ++ ":callback" ∧
      callback.requestId = request.id ∧ callback.requestRevision = revision ∧
      some callback.url = request.callbackUrl := by
  unfold owedCallback at h
  split at h
  · rename_i url _ hurl
    cases h
    exact ⟨rfl, rfl, rfl, rfl, hurl.symm⟩
  · cases h

theorem owedCallback_url {eventId now url : String} {request : DecisionRequest} {revision : Nat}
    {decision : Decision} (h : request.callbackUrl = some url) :
    owedCallback eventId now request revision (some decision) =
      some (callbackRow eventId now url request revision) := by
  simp only [owedCallback, h]

theorem owedCallback_no_url {eventId now : String} {request : DecisionRequest} {revision : Nat}
    {decision : Option Decision} (h : request.callbackUrl = none) :
    owedCallback eventId now request revision decision = none := by
  simp only [owedCallback, h]

theorem appended_of_eval {eventId now : String} {request : DecisionRequest}
    {kind : String} {decision : Option Decision} {db db' : Db}
    (h : Prog.eval databaseError (appendLifecycleOn eventId now request kind decision) db =
      .ok ((), db')) :
    ∃ row node, Appended eventId now request kind decision db db' row node := by
  simp only [appendLifecycleOn, originOn, Prog.eval_bind_eq_ok, Prog.eval_onTx_eq_ok,
    Prog.eval_query, Except.ok.injEq, Prod.mk.injEq, bumpRevision_eq_some,
    Option.map_eq_some_iff] at h
  obtain ⟨revision, s1, ⟨row, hrow, rfl, rfl⟩, creator, s2, ⟨row', hrow', rfl, rfl⟩, origin, s3,
    ⟨rfl, rfl⟩, node, s4, ⟨named, hnamed, rfl, rfl⟩, _, s5, hevent, hcallback⟩ := h
  have hcreator : row'.createdByIssuerTokenId = row.createdByIssuerTokenId := by
    rw [get?_bump hrow] at hrow'
    cases hrow'
    rfl
  rw [hcreator] at hevent
  obtain ⟨_, hunused, events, hins, rfl⟩ := insertEvent_eq_some.mp hevent
  obtain ⟨hfree, hrows⟩ := Table.insert?_eq_some.mp hins
  have hnode : named = ("node_id", named.2) := by
    rw [← Table.key_of_get? hnamed]
  refine ⟨row, named.2, ?_⟩
  cases hc : owedCallback eventId now request (row.revision + 1) decision with
  | none =>
    rw [hc] at hcallback
    cases hcallback
    exact ⟨hrow, hnode ▸ hnamed, hunused, hfree, rfl, hrows, by rw [hc]; simp, rfl⟩
  | some callback =>
    rw [hc] at hcallback
    obtain ⟨_, _, callbacks, hcins, rfl⟩ := insertCallback_eq_some.mp
      (Prog.eval_onTx_eq_ok.mp hcallback)
    have hcrows := (Table.insert?_eq_some.mp hcins).2
    exact ⟨hrow, hnode ▸ hnamed, hunused, hfree, rfl, hrows, by rw [hc]; exact hcrows, rfl⟩

/-- Reading a request does not see its revision. -/
theorem Appended.readRequest {P : Packages} {eventId now : String} {request : DecisionRequest}
    {kind : String} {decision : Option Decision} {db db' : Db} {row : RequestRow} {node : String}
    (h : Appended eventId now request kind decision db db' row node) (id : String) :
    readRequest P db' id = readRequest P db id := by
  have hrelated : db'.relatedOf id = db.relatedOf id := by
    rw [h.rest]
    rfl
  rw [Server.readRequest, Server.readRequest, hrelated, h.requests, Table.get?_update]
  cases db.requests.get? id with
  | none => rfl
  | some r =>
    rw [Option.map_some]
    split <;> rfl

/-- An append goes through when the request is stored, the node is named, its next revision and
    the event id are unused, and so is the delivery's id. -/
theorem exists_eval_appendLifecycleOn {eventId now node : String} {request : DecisionRequest}
    {kind : String} {decision : Option Decision} {db : Db} {row : RequestRow}
    (hrow : db.requests.get? request.id = some row)
    (hnode : db.integrationMeta.get? "node_id" = some ("node_id", node))
    (hunused : ∀ e ∈ db.events.rows, e.requestId = request.id → e.revision ≠ row.revision + 1)
    (hevent : db.events.get? eventId = none)
    (hcallback : ∀ c ∈ db.callbacks.rows,
      c.eventId ≠ eventId ∧ c.deliveryId ≠ eventId ++ ":callback") :
    ∃ db', Prog.eval databaseError (appendLifecycleOn eventId now request kind decision) db =
      .ok ((), db') := by
  have hfree : db.events.get? (db.nextEvent eventId now node kind request row decision).eventId =
    none := hevent
  obtain ⟨events, hins⟩ := Table.exists_insert? hfree
  let bumped : Db := { db with
    requests := db.requests.update (fun r => r.id = request.id)
      (fun r => { r with revision := r.revision + 1 }) fun _ => rfl }
  let logged : Db := { bumped with events := events, eventSeq := db.eventSeq + 1 }
  have hlog : insertEvent (db.nextEvent eventId now node kind request row decision) bumped =
      some ((), logged) :=
    insertEvent_eq_some.mpr ⟨Nat.succ_ne_zero _, hunused, events, hins, rfl⟩
  have hlast : ∃ db', Prog.eval databaseError
      (match owedCallback eventId now request (row.revision + 1) decision with
        | some callback => Prog.onTx (insertCallback callback)
        | none => pure ()) logged = .ok ((), db') := by
    cases hc : owedCallback eventId now request (row.revision + 1) decision with
    | none => exact ⟨logged, rfl⟩
    | some callback =>
      obtain ⟨hid, hdelivery, -⟩ := owedCallback_eventId hc
      have hdb : db.callbacks.get? callback.deliveryId = none := by
        rw [Table.get?_eq_none, hdelivery, List.mem_map]
        rintro ⟨c, hcm, hceq⟩
        exact (hcallback c hcm).2 hceq
      obtain ⟨callbacks, hcins⟩ := Table.exists_insert? hdb
      have hknown : logged.events.get? callback.eventId ≠ none := by
        rw [hid, Table.get?_insert? hins]
        simp [Db.nextEvent, eventRow]
      exact ⟨_, Prog.eval_onTx_eq_ok.mpr (insertCallback_eq_some.mpr
        ⟨hknown, fun c hcm => hid ▸ (hcallback c hcm).1, callbacks, hcins, rfl⟩)⟩
  obtain ⟨db', hlast⟩ := hlast
  refine ⟨db', ?_⟩
  simp only [appendLifecycleOn, originOn, Prog.eval_bind_eq_ok, Prog.eval_onTx_eq_ok,
    Prog.eval_query, Except.ok.injEq, Prod.mk.injEq, bumpRevision_eq_some,
    Option.map_eq_some_iff]
  exact ⟨_, bumped, ⟨row, hrow, rfl, rfl⟩, _, bumped, ⟨_, get?_bump hrow, rfl, rfl⟩, _, bumped,
    ⟨rfl, rfl⟩, node, bumped, ⟨_, hnode, rfl, rfl⟩, (), logged, hlog, hlast⟩

end Nod.Server
