import Nod.Server.Readback

/-
  What a recipient sees of a request: the typed projection of the HTTP path, the edit of the wire
  JSON on the live path (`sync.rs`, `api/sync_socket.rs`) and the decision view (`views.rs`).

  Both paths show a recipient the same card (`delivery_paths_agree`), and no view depends on the
  other recipients or on their answers (`recipient_noninterference`).
-/

namespace Nod.Server

open Lib Nod.Proto

variable (P : Packages)

/-! ## The live path -/

structure SyncEnvelope where
  kind : String
  at_ : DateTime
  targetUserIds : Option (List String)
  payload : Json

namespace Sync

/-- The whole request, for some of its recipients. -/
def requestForUsers (at_ : DateTime) (kind : String) (request : DecisionRequest)
    (targetUserIds : List String) : SyncEnvelope where
  kind := kind
  at_ := at_
  targetUserIds := some targetUserIds
  payload := .obj [("request", (request.toWire P.toExternals).toJson)]

def request (at_ : DateTime) (kind : String) (request : DecisionRequest) : SyncEnvelope :=
  requestForUsers P at_ kind request request.recipients

end Sync

/-- The unsalted digest of a request with other recipients is hidden. -/
def hideDigest (object : List (String × Json)) : List (String × Json) :=
  if ((Json.lookup "recipients" object).bind Json.asArr?).any fun rs => 1 < rs.length then
    Json.setMember "request_digest" .null object
  else object

/-- The outcome as one user sees it: the user's own decision, or none. -/
def filterDecisionsForUser (object : List (String × Json)) (userId : String) :
    List (String × Json) :=
  let decisions := ((Json.lookup "decisions" object).bind Json.asArr?).getD []
  let userDecision := decisions.find? fun d => (d.get? "user_id").bind Json.asStr? = some userId
  let object := Json.setMember "decisions" (.arr userDecision.toList) object
  match userDecision.bind (Json.get? "decision") with
  | some decision =>
    Json.setMember "decision" decision
      (Json.setMember "resolved_at" ((decision.get? "resolved_at").getD .null)
        (Json.setMember "status" (.str "resolved") object))
  | none =>
    if (Json.lookup "status" object).bind Json.asStr? = some "resolved" then
      Json.setMember "decision" .null
        (Json.setMember "resolved_at" .null (Json.setMember "status" (.str "pending") object))
    else object

/-- The members of a request that one of its recipients gets. -/
def filterMembersForUser (object : List (String × Json)) (userId : String) : List (String × Json) :=
  let object := Json.setMember "recipients" (.arr [.str userId]) (hideDigest object)
  let decisionResolution :=
    ((Json.lookup "decision_resolution" object).bind Json.asStr?).getD "shared"
  if decisionResolution ≠ "per_user" then object else filterDecisionsForUser object userId

def filterRequestForUser (request : Json) (userId : String) : Json :=
  match request with
  | .obj object => .obj (filterMembersForUser object userId)
  | v => v

/-- The payload with its request filtered. -/
def filterPayloadForUser (payload : Json) (userId : String) : Json :=
  match payload with
  | .obj members =>
    match Json.lookup "request" members with
    | some request =>
      .obj (Json.setMember "request" (filterRequestForUser request userId) members)
    | none => .obj members
  | v => v

/-- An envelope without targets is for everyone. -/
def syncEnvelopeForUser (envelope : SyncEnvelope) (userId : String) : SyncEnvelope :=
  match envelope.targetUserIds with
  | none => envelope
  | some _ =>
    { envelope with
      targetUserIds := none
      payload := filterPayloadForUser envelope.payload userId }

/-- The request JSON the socket sends to one recipient. -/
def liveRequest (request : DecisionRequest) (userId : String) : Json :=
  filterRequestForUser (request.toWire P.toExternals).toJson userId

theorem payload_syncEnvelopeForUser (at_ : DateTime) (kind : String) (request : DecisionRequest)
    (targets : List String) (userId : String) :
    (syncEnvelopeForUser (Sync.requestForUsers P at_ kind request targets) userId).payload =
      .obj [("request", liveRequest P request userId)] := rfl

/-! ## The HTTP path -/

/-- The request JSON a read returns to one recipient. -/
def httpRequest (request : DecisionRequest) (userId : String) : Json :=
  ((projectRequestForUser request userId).toWire P.toExternals).toJson

/-! ## The decision view -/

def pendingRecipients (request : DecisionRequest) : List String :=
  if request.decisionResolution ≠ .perUser ∨ request.status ≠ .pending then []
  else
    request.recipients.filter fun userId =>
      !request.userDecisions.any fun decision => decision.userId = userId

structure RequestDecisionView where
  requestId : String
  status : RequestStatus
  decision : Option Decision
  decisions : List UserDecision
  decisionResolution : DecisionResolution
  recipients : List String
  pendingRecipients : List String
  requestDigest : Option String
  timedOut : Option Bool
  deriving DecidableEq

def RequestDecisionView.fromRequest (request : DecisionRequest) : RequestDecisionView where
  requestId := request.id
  status := request.status
  decision := request.decision
  decisions := request.userDecisions
  decisionResolution := request.decisionResolution
  recipients := request.recipients
  pendingRecipients := Server.pendingRecipients request
  requestDigest := (request.toWire P.toExternals).requestDigest
  timedOut := none

/-! ## The live edit on the wire type -/

/-- What `filterDecisionsForUser` makes of a wire request. -/
def liveDecisions (r : Request) (userId : String) : Request :=
  match r.decisions.find? fun d => d.userId = userId with
  | some own =>
    { r with
      decisions := [own], status := .resolved, resolvedAt := some own.decision.resolvedAt
      decision := some own.decision }
  | none =>
    if r.status = .resolved then
      { r with decisions := [], status := .pending, resolvedAt := none, decision := none }
    else { r with decisions := [] }

/-- The request as a live event shows it, before its decisions are filtered. -/
def liveCard (r : Request) (userId : String) : Request :=
  { r with
    requestDigest := if 1 < r.recipients.length then none else r.requestDigest
    recipients := [userId] }

/-- What `filterMembersForUser` makes of a wire request. -/
def liveWire (r : Request) (userId : String) : Request :=
  if r.decisionResolution ≠ .perUser then liveCard r userId
  else liveDecisions (liveCard r userId) userId

def wireMembers (r : Request) : List (String × Json) :=
  match r.toJson with
  | .obj members => members
  | _ => []

theorem toJson_eq (r : Request) : r.toJson = .obj (wireMembers r) := rfl

theorem lookup_skipNone {α : Type} {k key : String} (h : k ≠ key) (f : α → Json) (a : Option α)
    (ms : List (String × Json)) :
    Json.lookup k (JsonOf.skipNone key f a ++ ms) = Json.lookup k ms := by
  cases a with
  | none => rfl
  | some a => rw [JsonOf.skipNone, List.singleton_append, Json.lookup, if_neg h]

theorem setMember_skipNone {α : Type} {k key : String} (h : k ≠ key) (v : Json) (f : α → Json)
    (a : Option α) (ms : List (String × Json)) :
    Json.setMember k v (JsonOf.skipNone key f a ++ ms) =
      JsonOf.skipNone key f a ++ Json.setMember k v ms := by
  cases a with
  | none => rfl
  | some a =>
    rw [JsonOf.skipNone, List.singleton_append, Json.setMember, if_neg h, List.singleton_append]

section Members

variable (r : Request)

theorem wireMembers_eq :
    wireMembers r = JsonOf.skipNone "answer_field" AnswerField.toJson r.answerField ++
      wireMembers { r with answerField := none } := by
  unfold wireMembers Request.toJson
  dsimp only
  rw [JsonOf.skipNone.eq_1 "answer_field" AnswerField.toJson, List.nil_append, List.append_assoc]

theorem lookup_wireMembers {k : String} (h : k ≠ "answer_field") :
    Json.lookup k (wireMembers r) = Json.lookup k (wireMembers { r with answerField := none }) := by
  rw [wireMembers_eq, lookup_skipNone h]

theorem setMember_wireMembers {k : String} {v : Json} {r' : Request} (h : k ≠ "answer_field")
    (hfield : r'.answerField = r.answerField)
    (hrest : Json.setMember k v (wireMembers { r with answerField := none }) =
      wireMembers { r' with answerField := none }) :
    Json.setMember k v (wireMembers r) = wireMembers r' := by
  rw [wireMembers_eq r, wireMembers_eq r', setMember_skipNone h, hrest, hfield]

theorem lookup_recipients :
    Json.lookup "recipients" (wireMembers r) = some (.arr (r.recipients.map .str)) :=
  lookup_wireMembers r (by decide)

theorem lookup_decisionResolution :
    Json.lookup "decision_resolution" (wireMembers r) = some (.str r.decisionResolution.asStr) :=
  lookup_wireMembers r (by decide)

theorem lookup_decisions :
    Json.lookup "decisions" (wireMembers r) = some (.arr (r.decisions.map UserDecision.toJson)) :=
  lookup_wireMembers r (by decide)

theorem lookup_status :
    Json.lookup "status" (wireMembers r) = some (.str r.status.asStr) :=
  lookup_wireMembers r (by decide)

theorem setMember_requestDigest :
    Json.setMember "request_digest" .null (wireMembers r) =
      wireMembers { r with requestDigest := none } :=
  setMember_wireMembers r (by decide) rfl rfl

theorem setMember_recipients (recipients : List String) :
    Json.setMember "recipients" (.arr (recipients.map .str)) (wireMembers r) =
      wireMembers { r with recipients := recipients } :=
  setMember_wireMembers r (by decide) rfl rfl

theorem setMember_decisions (decisions : List UserDecision) :
    Json.setMember "decisions" (.arr (decisions.map UserDecision.toJson)) (wireMembers r) =
      wireMembers { r with decisions := decisions } :=
  setMember_wireMembers r (by decide) rfl rfl

theorem setMember_status (status : RequestStatus) :
    Json.setMember "status" (.str status.asStr) (wireMembers r) =
      wireMembers { r with status := status } :=
  setMember_wireMembers r (by decide) rfl rfl

theorem setMember_resolvedAt (resolvedAt : Option DateTime) :
    Json.setMember "resolved_at" (JsonOf.optTime resolvedAt) (wireMembers r) =
      wireMembers { r with resolvedAt := resolvedAt } :=
  setMember_wireMembers r (by decide) rfl rfl

theorem setMember_decision (decision : Option Decision) :
    Json.setMember "decision" (optJson Decision.toJson decision) (wireMembers r) =
      wireMembers { r with decision := decision } :=
  setMember_wireMembers r (by decide) rfl rfl

end Members

/-- Status, time and decision of an outcome, set one after the other. -/
theorem setMember_outcome (r : Request) (status : RequestStatus) (resolvedAt : Option DateTime)
    (decision : Option Decision) :
    Json.setMember "decision" (optJson Decision.toJson decision)
        (Json.setMember "resolved_at" (JsonOf.optTime resolvedAt)
          (Json.setMember "status" (.str status.asStr) (wireMembers r))) =
      wireMembers { r with status := status, resolvedAt := resolvedAt, decision := decision } := by
  rw [setMember_status, setMember_resolvedAt, setMember_decision]

theorem get?_userDecision (d : UserDecision) :
    (d.toJson.get? "user_id").bind Json.asStr? = some d.userId := rfl

theorem get?_resolvedAt (d : Decision) :
    (d.toJson.get? "resolved_at").getD .null = JsonOf.optTime (some d.resolvedAt) := by
  unfold Decision.toJson Json.get?
  dsimp only
  rw [lookup_skipNone (by decide)]
  rfl

/-- The user's own entry among the rendered decisions. -/
theorem find?_rendered (decisions : List UserDecision) (userId : String) :
    (decisions.map UserDecision.toJson).find?
        (fun d => (d.get? "user_id").bind Json.asStr? = some userId) =
      (decisions.find? fun d => d.userId = userId).map UserDecision.toJson := by
  rw [List.find?_map]
  congr 2
  funext d
  rw [Function.comp_apply, get?_userDecision]
  exact decide_eq_decide.mpr Option.some_inj

theorem asStr_resolved (status : RequestStatus) :
    some status.asStr = some "resolved" ↔ status = .resolved := by
  cases status <;> decide

theorem asStr_perUser (resolution : DecisionResolution) :
    resolution.asStr ≠ "per_user" ↔ resolution ≠ .perUser := by
  cases resolution <;> decide

theorem hideDigest_eq (r : Request) :
    hideDigest (wireMembers r) = wireMembers
      { r with requestDigest := if 1 < r.recipients.length then none else r.requestDigest } := by
  have hmany : ((Json.lookup "recipients" (wireMembers r)).bind Json.asArr?).any
      (fun rs => decide (1 < rs.length)) = true ↔ 1 < r.recipients.length := by
    rw [lookup_recipients, Option.bind_some, Json.asArr?, Option.any_some, decide_eq_true_eq,
      List.length_map]
  unfold hideDigest
  by_cases h : 1 < r.recipients.length
  · rw [if_pos h]
    exact (if_pos (hmany.mpr h)).trans (setMember_requestDigest r)
  · rw [if_neg h]
    exact if_neg fun hlen => h (hmany.mp hlen)

theorem filterDecisionsForUser_eq (r : Request) (userId : String) :
    filterDecisionsForUser (wireMembers r) userId = wireMembers (liveDecisions r userId) := by
  unfold filterDecisionsForUser
  dsimp only
  rw [lookup_decisions, Option.bind_some, Json.asArr?, Option.getD_some, find?_rendered]
  unfold liveDecisions
  cases r.decisions.find? (fun d => decide (d.userId = userId)) with
  | some own =>
    have hown := setMember_decisions r [own]
    have hrest := setMember_outcome { r with decisions := [own] } .resolved
      (some own.decision.resolvedAt) (some own.decision)
    rw [← hown, ← get?_resolvedAt] at hrest
    exact hrest
  | none =>
    have hnone := setMember_decisions r []
    have hrest := setMember_outcome { r with decisions := [] } .pending none none
    rw [← hnone] at hrest
    have hstatus : ((Json.lookup "status" (Json.setMember "decisions" (.arr [])
        (wireMembers r))).bind Json.asStr? = some "resolved") ↔ r.status = .resolved := by
      rw [show Json.arr [] = Json.arr (([] : List UserDecision).map UserDecision.toJson) from rfl,
        hnone, lookup_status]
      exact asStr_resolved r.status
    by_cases hresolved : r.status = .resolved
    · rw [if_pos hresolved]
      exact (if_pos (hstatus.mpr hresolved)).trans hrest
    · rw [if_neg hresolved]
      exact (if_neg fun h => hresolved (hstatus.mp h)).trans hnone

/-- The edit of the rendered request renders the edited request. -/
theorem filterMembersForUser_eq (r : Request) (userId : String) :
    filterMembersForUser (wireMembers r) userId = wireMembers (liveWire r userId) := by
  have hcard : Json.setMember "recipients" (.arr [.str userId]) (hideDigest (wireMembers r)) =
      wireMembers (liveCard r userId) := by
    rw [hideDigest_eq]
    exact setMember_recipients _ [userId]
  unfold filterMembersForUser
  dsimp only
  rw [hcard, lookup_decisionResolution, Option.bind_some, Json.asStr?, Option.getD_some]
  unfold liveWire
  by_cases hshared : r.decisionResolution ≠ .perUser
  · rw [if_pos hshared]
    exact if_pos ((asStr_perUser _).mpr hshared)
  · rw [if_neg hshared, ← filterDecisionsForUser_eq]
    exact if_neg fun h => hshared ((asStr_perUser _).mp h)

theorem filterRequestForUser_toJson (r : Request) (userId : String) :
    filterRequestForUser r.toJson userId = (liveWire r userId).toJson := by
  rw [toJson_eq, toJson_eq, filterRequestForUser, filterMembersForUser_eq]

/-! ## Both paths on a stored request -/

/-- What a stored request's recipients and answers are like. -/
structure WellKept (r : DecisionRequest) : Prop where
  recipients : r.recipients.Nodup
  shared : r.decisionResolution = .shared → r.userDecisions = []
  perUser : (r.userDecisions.map UserDecision.userId).Nodup
  whole : r.privateRecipients = false

section Paths

variable {P} {r : DecisionRequest} {userId : String}

theorem filter_recipients (h : r.recipients.Nodup) (hmem : userId ∈ r.recipients) :
    (r.recipients.filter fun u => u = userId) = [userId] := by
  have hcount : r.recipients.count userId = 1 := List.count_eq_one_of_mem h hmem
  rw [List.filter_eq userId, hcount]
  rfl

/-- At most one of the decisions is the user's own. -/
theorem filter_userDecisions {ds : List UserDecision}
    (h : (ds.map UserDecision.userId).Nodup) (userId : String) :
    (ds.filter fun d => d.userId = userId) = (ds.find? fun d => d.userId = userId).toList := by
  induction ds with
  | nil => rfl
  | cons d ds ih =>
    rw [List.map_cons, List.nodup_cons] at h
    rw [List.filter_cons, List.find?_cons]
    by_cases hd : d.userId = userId
    · have hrest : (ds.filter fun d => decide (d.userId = userId)) = [] := by
        rw [List.filter_eq_nil_iff]
        intro e he heq
        exact h.1 (List.mem_map.mpr ⟨e, he, (of_decide_eq_true heq).trans hd.symm⟩)
      rw [hrest, if_pos (decide_eq_true hd), decide_eq_true hd]
      rfl
    · rw [if_neg (by simpa using hd), decide_eq_false hd]
      exact ih h.2

/-- Status, time and decision as one user sees them. -/
def ownOutcome (resolution : DecisionResolution) (decisions : List UserDecision) (userId : String)
    (outcome : RequestStatus × Option DateTime × Option Decision) :
    RequestStatus × Option DateTime × Option Decision :=
  if resolution = .perUser then
    match decisions.find? fun d => d.userId = userId with
    | some own => (.resolved, some own.decision.resolvedAt, some own.decision)
    | none => if outcome.1 = .resolved then (.pending, none, none) else outcome
  else outcome

def DecisionRequest.outcomeFor (r : DecisionRequest) (userId : String) :
    RequestStatus × Option DateTime × Option Decision :=
  ownOutcome r.decisionResolution r.userDecisions userId (r.status, r.resolvedAt, r.decision)

theorem projectRequestForUser_eq (r : DecisionRequest) (userId : String) :
    projectRequestForUser r userId =
      { r with
        privateRecipients := 1 < r.recipients.length
        status := (r.outcomeFor userId).1
        resolvedAt := (r.outcomeFor userId).2.1
        decision := (r.outcomeFor userId).2.2
        recipients := r.recipients.filter fun u => u = userId
        userDecisions := r.userDecisions.filter fun d => d.userId = userId } := by
  unfold projectRequestForUser DecisionRequest.outcomeFor ownOutcome
  dsimp only
  by_cases hperUser : r.decisionResolution = .perUser
  · rw [if_pos hperUser, if_pos hperUser]
    cases r.userDecisions.find? (fun d => decide (d.userId = userId)) with
    | some own => rfl
    | none =>
      by_cases hresolved : r.status = .resolved
      · simp only [if_pos hresolved]
      · simp only [if_neg hresolved]
  · rw [if_neg hperUser, if_neg hperUser]

theorem liveWire_eq (w : Request) (userId : String) :
    liveWire w userId =
      { w with
        requestDigest := if 1 < w.recipients.length then none else w.requestDigest
        recipients := [userId]
        status := (ownOutcome w.decisionResolution w.decisions userId
          (w.status, w.resolvedAt, w.decision)).1
        resolvedAt := (ownOutcome w.decisionResolution w.decisions userId
          (w.status, w.resolvedAt, w.decision)).2.1
        decision := (ownOutcome w.decisionResolution w.decisions userId
          (w.status, w.resolvedAt, w.decision)).2.2
        decisions :=
          if w.decisionResolution = .perUser then
            (w.decisions.find? fun d => d.userId = userId).toList
          else w.decisions } := by
  unfold liveWire ownOutcome liveDecisions liveCard
  dsimp only
  by_cases hperUser : w.decisionResolution = .perUser
  · rw [if_neg (not_not.mpr hperUser), if_pos hperUser, if_pos hperUser]
    cases w.decisions.find? (fun d => decide (d.userId = userId)) with
    | some own => rfl
    | none =>
      by_cases hresolved : w.status = .resolved
      · simp only [if_pos hresolved]
        rfl
      · simp only [if_neg hresolved]
        rfl
  · rw [if_pos hperUser, if_neg hperUser, if_neg hperUser]

/-- What the projection's wire digest is. -/
theorem requestDigest_project (h : WellKept r) (hmem : userId ∈ r.recipients) :
    ((projectRequestForUser r userId).toWire P.toExternals).requestDigest =
      if 1 < r.recipients.length then none else (r.toWire P.toExternals).requestDigest := by
  rw [projectRequestForUser_eq]
  unfold DecisionRequest.toWire
  by_cases hmany : 1 < r.recipients.length
  · rw [if_pos hmany, if_neg]
    · rfl
    · simp [hmany]
  · have hone : r.recipients.filter (fun u => decide (u = userId)) = r.recipients := by
      rw [filter_recipients h.recipients hmem]
      match hr : r.recipients, hmem, hmany with
      | [u], hmem, _ => rw [List.mem_singleton.mp hmem]
      | _ :: _ :: _, _, hmany => simp at hmany
    rw [if_neg hmany]
    simp only [hone, h.whole, hmany, decide_false, true_and]
    split
    · rfl
    · rfl

theorem toWire_eq (r : DecisionRequest) :
    ∃ digest, r.toWire P.toExternals = { r.toRequest with requestDigest := digest } := by
  unfold DecisionRequest.toWire
  split
  · exact ⟨_, rfl⟩
  · exact ⟨none, rfl⟩

/-- Both delivery paths give a recipient the same wire request. -/
theorem liveWire_toWire (h : WellKept r) (hmem : userId ∈ r.recipients) :
    liveWire (r.toWire P.toExternals) userId =
      (projectRequestForUser r userId).toWire P.toExternals := by
  obtain ⟨hidden, hproject⟩ := toWire_eq (P := P) (r := projectRequestForUser r userId)
  obtain ⟨digest, hwire⟩ := toWire_eq (P := P) (r := r)
  have hdigest := requestDigest_project (P := P) h hmem
  rw [hproject, hwire] at hdigest
  have hdecisions : (if r.decisionResolution = .perUser then
        (r.userDecisions.find? fun d => d.userId = userId).toList else r.userDecisions) =
      r.userDecisions.filter fun d => d.userId = userId := by
    by_cases hperUser : r.decisionResolution = .perUser
    · rw [if_pos hperUser, filter_userDecisions h.perUser]
    · have hshared : r.decisionResolution = .shared := by
        cases hres : r.decisionResolution with
        | shared => rfl
        | perUser => exact absurd hres hperUser
      rw [if_neg hperUser, h.shared hshared]
      rfl
  have hhidden : hidden = if 1 < r.recipients.length then none else digest := hdigest
  rw [liveWire_eq, hproject, hwire, hhidden, projectRequestForUser_eq,
    filter_recipients h.recipients hmem, ← hdecisions]
  rfl

end Paths

/-! ## Stored requests -/

theorem nodup_decisions_relatedOf (db : Db) (id : String) :
    ((db.relatedOf id).decisions.map UserDecision.userId).Nodup := by
  have hkeys : ((selectUserDecisions [id] db).map UserDecisionRow.key).Nodup := by
    unfold selectUserDecisions
    have hperm := List.mergeSort_perm
      (db.userDecisions.rows.filter fun r => r.requestId ∈ [id]) UserDecisionRow.before
    exact ((hperm.map _).nodup_iff).mpr (db.userDecisions.nodup.sublist (List.filter_sublist.map _))
  have hmine := hkeys.sublist ((List.filter_sublist
    (p := fun r : UserDecisionRow => decide (r.requestId = id))).map UserDecisionRow.key)
  have hpairs : ((selectUserDecisions [id] db).filter fun r => r.requestId = id).map
        UserDecisionRow.key =
      ((db.relatedOf id).decisions.map UserDecision.userId).map (Prod.mk id) := by
    unfold Db.relatedOf relatedRows
    rw [List.map_map, List.map_map]
    apply List.map_congr_left
    intro r hr
    have hreq : r.requestId = id := of_decide_eq_true (List.mem_filter.mp hr).2
    rw [UserDecisionRow.key, hreq]
    rfl
  rw [hpairs] at hmine
  exact hmine.of_map _

theorem wellKept_of_read {s : Db} (hs : WellFormed P s) {id : String} {r : DecisionRequest}
    (h : readRequest P s id = .ok r) : WellKept r := by
  obtain ⟨row, version, digest, hrow, hreads⟩ := (readRequest_eq_ok P).mp h
  have hdecisions : r.userDecisions = (s.relatedOf id).decisions := by
    rw [hreads.request]
    rfl
  refine ⟨?_, fun hshared => ?_, ?_, ?_⟩
  · rw [hreads.recipients, recipients_relatedOf]
    exact nodup_recipientsOf s id
  · rw [hdecisions, List.eq_nil_iff_forall_not_mem]
    intro d hd
    rw [mem_decisions_relatedOf] at hd
    have hrowShared : row.decisionResolution = .shared := by
      rw [← hreads.decisionResolution]
      exact hshared
    have hnone := ((hs.good hrow).1.shared hrowShared).1
    have hid : row.id = id := Table.key_of_get? hrow
    simp only [Db.ballotOf, hid] at hnone
    rw [hnone] at hd
    exact List.not_mem_nil hd
  · rw [hdecisions]
    exact nodup_decisions_relatedOf s id
  · rw [hreads.request]
    rfl

/-- What a recipient gets on either path, as JSON. -/
theorem liveRequest_eq_httpRequest {r : DecisionRequest} (h : WellKept r) {userId : String}
    (hmem : userId ∈ r.recipients) : liveRequest P r userId = httpRequest P r userId := by
  unfold liveRequest httpRequest
  rw [filterRequestForUser_toJson, liveWire_toWire h hmem]

/-- The socket shows each recipient of a stored request the card that a read shows. -/
def DeliveryPathsAgree (s : Db) : Prop :=
  ∀ id r, readRequest P s id = .ok r → ∀ userId ∈ r.recipients,
    liveRequest P r userId = httpRequest P r userId ∧
      ∀ at_ kind targets,
        (syncEnvelopeForUser (Sync.requestForUsers P at_ kind r targets) userId).payload =
          .obj [("request", httpRequest P r userId)]

theorem delivery_paths_agree (calls : List Call) :
    DeliveryPathsAgree P (run P calls Db.empty) := by
  intro id r hread userId hmem
  have hkept := wellKept_of_read P (wellFormed_run_empty calls) hread
  have hsame := liveRequest_eq_httpRequest P hkept hmem
  refine ⟨hsame, fun at_ kind targets => ?_⟩
  rw [payload_syncEnvelopeForUser, hsame]

/-! ## Noninterference -/

/-- The content of a request with its own timestamps, without recipients and outcome. -/
def DecisionRequest.face (r : DecisionRequest) : DecisionRequest :=
  { r with
    recipients := [], status := .pending, resolvedAt := none, decision := none, userDecisions := [] }

/-- A status that the other recipients' answers cannot change. -/
def unanswered (status : RequestStatus) : RequestStatus :=
  if status = .resolved then .pending else status

/-- Two requests agree on what one user may see. -/
structure SeenAlike (userId : String) (r₁ r₂ : DecisionRequest) : Prop where
  face : r₁.face = r₂.face
  own : (r₁.userDecisions.find? fun d => d.userId = userId) =
    r₂.userDecisions.find? fun d => d.userId = userId
  /-- a shared outcome is everyone's -/
  shared : r₁.decisionResolution = .shared →
    (r₁.status, r₁.resolvedAt, r₁.decision) = (r₂.status, r₂.resolvedAt, r₂.decision)
  /-- a user who has not answered sees a withdrawn or lapsed request as such -/
  perUser : r₁.decisionResolution = .perUser →
    (r₁.userDecisions.find? fun d => d.userId = userId) = none →
      unanswered r₁.status = unanswered r₂.status

/-- Under per-user resolution the request itself carries no outcome. -/
structure Outcomeless (r : DecisionRequest) : Prop where
  decision : r.decisionResolution = .perUser → r.decision = none
  resolvedAt : r.status ≠ .resolved → r.resolvedAt = none

theorem outcomeless_of_read {s : Db} (hs : WellFormed P s) (hl : Legible P s) {id : String}
    {r : DecisionRequest} (h : readRequest P s id = .ok r) : Outcomeless r := by
  obtain ⟨row, version, digest, hrow, hreads⟩ := (readRequest_eq_ok P).mp h
  refine ⟨fun hperUser => ?_, fun hunresolved => ?_⟩
  · have hnot : ¬ (rules P).shared (s.ballotOf row).content := by
      intro hshared
      have hrowShared : row.decisionResolution = .shared := hshared
      rw [← hreads.decisionResolution, hperUser] at hrowShared
      cases hrowShared
    rw [hreads.request]
    exact ((hs.good hrow).1.each hnot).1
  · have hnone := hl.unresolved id row hrow (hreads.status ▸ hunresolved)
    have htimes := hreads.resolvedAt
    rw [hnone] at htimes
    cases hr : r.resolvedAt with
    | none => rfl
    | some t =>
      rw [hr] at htimes
      cases htimes

theorem outcomeFor_congr {userId : String} {r₁ r₂ : DecisionRequest} (h : SeenAlike userId r₁ r₂)
    (h₁ : Outcomeless r₁) (h₂ : Outcomeless r₂) :
    r₁.outcomeFor userId = r₂.outcomeFor userId := by
  have hresolution : r₂.decisionResolution = r₁.decisionResolution :=
    (congrArg DecisionRequest.decisionResolution h.face).symm
  unfold DecisionRequest.outcomeFor
  rw [hresolution]
  cases hres : r₁.decisionResolution with
  | shared =>
    rw [h.shared hres]
    rfl
  | perUser =>
    unfold ownOutcome
    rw [if_pos rfl, if_pos rfl, ← h.own]
    cases hown : r₁.userDecisions.find? (fun d => decide (d.userId = userId)) with
    | some own => rfl
    | none =>
      have hstatus := h.perUser hres hown
      have hdecision₁ := h₁.decision hres
      have hdecision₂ := h₂.decision (hresolution.trans hres)
      have hplain : ∀ r : DecisionRequest, Outcomeless r → r.decision = none →
          (if r.status = .resolved then (.pending, none, none)
            else (r.status, r.resolvedAt, r.decision)) = (unanswered r.status, none, none) := by
        intro r hr hdecision
        unfold unanswered
        by_cases hresolved : r.status = .resolved
        · rw [if_pos hresolved, if_pos hresolved]
        · rw [if_neg hresolved, if_neg hresolved, hr.resolvedAt hresolved, hdecision]
      exact (hplain r₁ h₁ hdecision₁).trans (hstatus ▸ (hplain r₂ h₂ hdecision₂).symm)

/-- One user's projections of two requests that this user sees alike are the same. -/
theorem projectRequestForUser_congr {userId : String} {r₁ r₂ : DecisionRequest}
    (h : SeenAlike userId r₁ r₂) (h₁ : Outcomeless r₁) (h₂ : Outcomeless r₂)
    (hkept₁ : WellKept r₁) (hkept₂ : WellKept r₂) (hmem₁ : userId ∈ r₁.recipients)
    (hmem₂ : userId ∈ r₂.recipients) (hmany₁ : 1 < r₁.recipients.length)
    (hmany₂ : 1 < r₂.recipients.length) :
    projectRequestForUser r₁ userId = projectRequestForUser r₂ userId := by
  rw [projectRequestForUser_eq, projectRequestForUser_eq, outcomeFor_congr h h₁ h₂,
    filter_recipients hkept₁.recipients hmem₁, filter_recipients hkept₂.recipients hmem₂,
    filter_userDecisions hkept₁.perUser, filter_userDecisions hkept₂.perUser, h.own,
    decide_eq_true hmany₁, decide_eq_true hmany₂]
  exact congrArg (fun face : DecisionRequest =>
    { face with
      privateRecipients := true
      status := (r₂.outcomeFor userId).1
      resolvedAt := (r₂.outcomeFor userId).2.1
      decision := (r₂.outcomeFor userId).2.2
      recipients := [userId]
      userDecisions := (r₂.userDecisions.find? fun d : UserDecision => d.userId = userId).toList })
    h.face

/-- The three views of a request that one of its recipients can get. -/
structure SameCard (userId : String) (r₁ r₂ : DecisionRequest) : Prop where
  http : httpRequest P r₁ userId = httpRequest P r₂ userId
  decisionView : RequestDecisionView.fromRequest P (projectRequestForUser r₁ userId) =
    RequestDecisionView.fromRequest P (projectRequestForUser r₂ userId)
  live : liveRequest P r₁ userId = liveRequest P r₂ userId

/-- What a recipient gets of requests of two states does not depend on the other recipients. -/
def Noninterfering (s₁ s₂ : Db) : Prop :=
  ∀ id₁ id₂ r₁ r₂ userId, readRequest P s₁ id₁ = .ok r₁ → readRequest P s₂ id₂ = .ok r₂ →
    userId ∈ r₁.recipients → userId ∈ r₂.recipients →
      (∃ u ∈ r₁.recipients, u ≠ userId) → (∃ u ∈ r₂.recipients, u ≠ userId) →
        SeenAlike userId r₁ r₂ → SameCard P userId r₁ r₂

theorem one_lt_length_of_other {us : List String} {u v : String} (hu : u ∈ us) (hv : v ∈ us)
    (hne : v ≠ u) : 1 < us.length := by
  match us, hu, hv with
  | [w], hu, hv => exact absurd ((List.mem_singleton.mp hv).trans (List.mem_singleton.mp hu).symm) hne
  | _ :: _ :: _, _, _ => exact Nat.succ_lt_succ (Nat.succ_pos _)

/-- In any two reachable states: a recipient's card of a request with other recipients depends
    only on its content, its own times, the user's own decision and an outcome that is shared. -/
theorem recipient_noninterference (calls₁ calls₂ : List Call) :
    Noninterfering P (run P calls₁ Db.empty) (run P calls₂ Db.empty) := by
  intro id₁ id₂ r₁ r₂ userId hread₁ hread₂ hmem₁ hmem₂ ⟨v₁, hv₁, hne₁⟩ ⟨v₂, hv₂, hne₂⟩ halike
  have hs₁ := wellFormed_run_empty (P := P) calls₁
  have hs₂ := wellFormed_run_empty (P := P) calls₂
  have hkept₁ := wellKept_of_read P hs₁ hread₁
  have hkept₂ := wellKept_of_read P hs₂ hread₂
  have hproject := projectRequestForUser_congr halike
    (outcomeless_of_read P hs₁ (legible_run_empty calls₁) hread₁)
    (outcomeless_of_read P hs₂ (legible_run_empty calls₂) hread₂) hkept₁ hkept₂ hmem₁ hmem₂
    (one_lt_length_of_other hmem₁ hv₁ hne₁) (one_lt_length_of_other hmem₂ hv₂ hne₂)
  have hhttp : httpRequest P r₁ userId = httpRequest P r₂ userId := by
    unfold httpRequest
    rw [hproject]
  refine ⟨hhttp, by rw [hproject], ?_⟩
  rw [liveRequest_eq_httpRequest P hkept₁ hmem₁, liveRequest_eq_httpRequest P hkept₂ hmem₂, hhttp]

end Nod.Server
