import Nod.Server.Accounts
import Nod.Server.SigningContext
import Nod.Server.Replay

/-
  The service in front of the database, and the evidence kept with decisions. Every submission
  comes from a device that the service has authenticated at some earlier moment (`auth.rs`,
  `services/requests.rs`); other calls can run between the two.
  Proved: `stored_evidence`, every stored decision has a signature that verifies again from the
  stored fields alone, under the key its device had when it was accepted.
-/

namespace Nod.Server

open Lib Nod.Proto

variable (P : Packages)

/-! ## The service -/

def findDeviceByHash (hash : String) (db : Db) : Option Device :=
  (db.devices.rows.find? fun d => d.tokenHash = hash && d.revokedAt = none).map DeviceRow.toDevice

/-- What the service hands on: the device that has been authenticated and its user. -/
def submissionOf (device : Device) (requestId optionId : String)
    (decision : SubmitDecisionRequest) : DecisionSubmission :=
  { requestId, optionId, actorDevice := some device, actorUserId := some device.userId, decision }

def Op.isDecision : Op → Bool
  | .recordDecision _ _ => true
  | _ => false

/-- The database, and the devices that were authenticated. -/
structure Service where
  db : Db
  devices : List Device

def Service.empty : Service := ⟨Db.empty, []⟩

/-- `requireDevice` loads a device; `decide` goes on with the one that was loaded as number
    `request`; any other call goes to the database. -/
inductive ServiceCall where
  | requireDevice (token : String)
  | decide (request : ℕ) (env : Env) (requestId optionId : String)
      (decision : SubmitDecisionRequest) (faults : List Bool)
  | other (call : Call) (h : call.op.isDecision = false)

namespace Service

/-- The database call of a service call. -/
def callOf (s : Service) : ServiceCall → Option Call
  | .requireDevice _ => none
  | .decide request env requestId optionId decision faults =>
    s.devices[request]?.map fun device =>
      ⟨.recordDecision env (submissionOf device requestId optionId decision), faults⟩
  | .other call _ => some call

def loaded (s : Service) : ServiceCall → Option Device
  | .requireDevice token => findDeviceByHash (hashSecret P token) s.db
  | _ => none

def step (s : Service) (c : ServiceCall) : Service :=
  { db := run P (s.callOf c).toList s.db, devices := s.devices ++ (s.loaded P c).toList }

end Service

/-- The service after some calls. -/
def serve (calls : List ServiceCall) : Service := calls.foldl (Service.step P) Service.empty

/-! ## Evidence -/

/-- The payload of a decision, rebuilt from what is stored with it. -/
def rebuiltPayload (decision : Decision) : Option String := do
  let signature ← decision.signature
  let userId ← decision.actorUserId
  let deviceId ← decision.actorDeviceId
  let signedAt ← DateTime.parseFromRfc3339 signature.signedAt
  let input : DecisionSigningInput :=
    { requestId := decision.requestId, requestDigest := signature.requestDigest
      optionId := decision.optionId, optionKind := decision.optionKind, userId, deviceId
      keyId := signature.keyId, nonce := signature.nonce
      signedAt := signedAt.toRfc3339Millis, text := decision.text }
  match signature.payloadVersion, decision.answerValue with
  | none, none => some (decisionSigningPayload P.toExternals input)
  | some version, some answer =>
    if version = valueDecisionPayloadVersion then
      (decisionSigningPayloadV2 input answer).toOption
    else none
  | _, _ => none

/-- The option of a decision is one of the request's, or the dismissal of an ordinary card
    without options. -/
def OptionStands (request : DecisionRequest) (decision : Decision) : Prop :=
  (∃ option ∈ request.options, option.id = decision.optionId ∧ option.kind = decision.optionKind ∧
    option.label = decision.optionLabel) ∨
  (request.options = [] ∧ request.answerField = none ∧ decision.optionId = "dismiss" ∧
    decision.optionKind = .dismiss)

def AnswerStands (request : DecisionRequest) (decision : Decision) : Prop :=
  match request.answerField with
  | some field => ∃ answer, decision.answerValue = some answer ∧ field.validateValue answer = .ok ()
  | none => decision.answerValue = none

/-- A stored decision of a request, with its device as the database had it when the decision was
    accepted. -/
structure Evidence (accepted : Db) (request : DecisionRequest) (decision : Decision)
    (device : DeviceRow) : Prop where
  registered : accepted.devices.get? device.id = some device
  active : device.revokedAt = none
  requestId : decision.requestId = request.id
  actorDevice : decision.actorDeviceId = some device.id
  actorUser : decision.actorUserId = some device.userId
  signed : ∃ signature payload key, decision.signature = some signature ∧
    rebuiltPayload P decision = some payload ∧ device.signingKeyId = some signature.keyId ∧
    device.signingPublicKey = some key ∧
    verifyPayload P.toExternals key payload signature.signature = .ok () ∧
    ∃ candidates, digestCandidates P request = .ok candidates ∧
      signature.requestDigest ∈ candidates
  recipient : device.userId ∈ request.recipients
  option : OptionStands request decision
  answer : AnswerStands request decision

/-- Every stored decision was accepted by a call of the run, and its evidence stands. -/
def EvidenceStored (calls : List ServiceCall) : Prop :=
  ∀ id decision, decision ∈ (serve P calls).db.storedDecisions id →
    ∃ request, readRequest P (serve P calls).db id = .ok request ∧
      ∃ earlier call later device, calls = earlier ++ call :: later ∧
        decision ∈ ((serve P earlier).step P call).db.storedDecisions id ∧
        decision ∉ (serve P earlier).db.storedDecisions id ∧
        Evidence P (serve P earlier).db request decision device

variable {P}

/-! ## Where a stored decision comes from -/

theorem stored_of_mem_storedDecisions {s : Db} (hs : WellFormed P s) {id : String}
    {decision : Decision} (h : decision ∈ s.storedDecisions id) :
    ∃ row, s.requests.get? id = some row := by
  refine Option.ne_none_iff_exists'.mp fun hnone => ?_
  rw [storedDecisions_of_get?_none hs.toTables hnone] at h
  exact List.not_mem_nil h

/-- A stored request's decisions are those of its answer events. -/
theorem mem_storedDecisions_iff {s : Db} (hs : WellFormed P s) {id : String} {row : RequestRow}
    (hrow : s.requests.get? id = some row) (decision : Decision) :
    decision ∈ s.storedDecisions id ↔ ∃ e ∈ s.eventsOf id,
      e.kind = answerRecorded ∧ e.detail.decision = some decision := by
  obtain ⟨-, hentries⟩ := hs.good hrow
  have hlabels : (s.eventsOf id).map (fun e => (e.kind, e.detail.decision)) =
      (s.ballotOf row).history.map eventLabel := by
    have hsnd := congrArg (List.map Prod.snd) hentries
    have hlength : (List.range' 1 (s.ballotOf row).history.length).length =
        ((s.ballotOf row).history.map eventLabel).length := by
      rw [List.length_range', List.length_map]
    rw [List.map_map] at hsnd
    exact hsnd.trans (List.map_snd_zip hlength.ge)
  have hmem : decision ∈ s.storedDecisions id ↔
      Poll.Event.answered decision ∈ (s.ballotOf row).history := by
    rw [storedDecisions_of_get? hrow]
    unfold Poll.Ballot.history
    have hclosing : Poll.Event.answered decision ∉ Poll.closing (s.ballotOf row).phase := by
      cases (s.ballotOf row).phase <;> simp [Poll.closing]
    simp only [List.mem_cons, reduceCtorEq, List.mem_append, List.mem_map, hclosing, or_false,
      false_or, Poll.Event.answered.injEq, exists_eq_right]
    exact or_comm
  have hlabel : ∀ e : Poll.Event Decision, eventLabel e = (answerRecorded, some decision) ↔
      e = .answered decision := by
    intro e
    cases e <;> simp [eventLabel]
  have hevent : Poll.Event.answered decision ∈ (s.ballotOf row).history ↔
      (answerRecorded, some decision) ∈ (s.ballotOf row).history.map eventLabel := by
    simp only [List.mem_map, hlabel, exists_eq_right]
  rw [hmem, hevent, ← hlabels]
  simp only [List.mem_map, Prod.mk.injEq]

/-- The one event of an accepted submission. -/
theorem event_of_recorded {env : Env} {submission : DecisionSubmission} {s s' : Db}
    {resolved : DecisionRequest}
    (h : Prog.eval databaseError (recordDecision P env submission) s = .ok (resolved, s')) :
    ∃ request option signature signed e, Checked P env submission s request option ∧
      Signed P env submission request option s signature signed ∧
      s'.events.rows = s.events.rows ++ [e] ∧ e.requestId = submission.requestId ∧
      e.detail.decision = some (decisionOf submission option signature (env.now 1)) := by
  obtain ⟨request, option, signature, signed, stored, row, node, hchecked, hsigned, hstored, hread,
    happended⟩ := recorded_of_eval P h
  have hevents : stored.events = s.events := by
    rw [hstored.rest, hsigned.rest]
  have hadded := happended.events
  rw [hevents] at hadded
  exact ⟨request, option, signature, signed, _, hchecked, hsigned, hadded,
    id_of_readRequest P hread, rfl⟩

/-- The other calls add no answer events. -/
def NoAnswers (s s' : Db) : Prop :=
  ∀ e ∈ s'.events.rows, e.kind = answerRecorded → e ∈ s.events.rows

theorem noAnswers_of_adds {s s' : Db} {events : List EventRow} {callbacks : List CallbackRow}
    (h : Adds s s' events callbacks) (hkinds : ∀ e ∈ events, e.kind ≠ answerRecorded) :
    NoAnswers s s' := by
  intro e he hkind
  rw [h.events, List.mem_append] at he
  exact he.resolve_right fun hnew => hkinds e hnew hkind

theorem noAnswers_created {env : Env} {req : CreateDecisionRequest}
    {metadata : CreateRequestMetadata} {s s' : Db} {created : CreatedDecisionRequest}
    (h : Prog.eval databaseError (createRequest P env req metadata) s = .ok (created, s')) :
    NoAnswers s s' := by
  have hjournaled := journaled_create h
  unfold CreateJournaled at hjournaled
  dsimp only at hjournaled
  split at hjournaled
  · exact noAnswers_of_adds hjournaled fun e he => absurd he List.not_mem_nil
  · obtain ⟨e, hadds, hevent⟩ := hjournaled
    refine noAnswers_of_adds hadds fun e' he' => ?_
    rw [List.mem_singleton.mp he', hevent.kind]
    decide

theorem noAnswers_cancelled {env : Env} {id : String} {s s' : Db} {r : DecisionRequest}
    (h : Prog.eval databaseError (cancelRequest P env id) s = .ok (r, s')) : NoAnswers s s' := by
  obtain ⟨e, hadds, hevent⟩ := journaled_cancel h
  refine noAnswers_of_adds hadds fun e' he' => ?_
  rw [List.mem_singleton.mp he', hevent.kind]
  decide

theorem noAnswers_swept {env : Env} {s s' : Db} {rs : List DecisionRequest} (hs : Tables P s)
    (h : Prog.eval databaseError (expireDueRequests P env) s = .ok (rs, s')) : NoAnswers s s' := by
  obtain ⟨events, hadds, -, hkinds⟩ := journaled_sweep hs h
  refine noAnswers_of_adds hadds fun e he => ?_
  rw [hkinds e he]
  decide

theorem isDecision_eq_true {op : Op} :
    op.isDecision = true ↔ ∃ env submission, op = .recordDecision env submission := by
  cases op <;> simp [Op.isDecision]

theorem noAnswers_call (c : Call) {s : Db} (hs : WellFormed P s) (h : c.op.isDecision = false) :
    NoAnswers s (c.after P s) := by
  have hquiet : Adds s (c.after P s) [] [] → NoAnswers s (c.after P s) :=
    fun hadds => noAnswers_of_adds hadds fun e he => absurd he List.not_mem_nil
  obtain ⟨op, faults⟩ := c
  cases op with
  | admin op => exact hquiet (journaled_call ⟨.admin op, faults⟩ hs)
  | deleteChannel channelId => exact hquiet (journaled_call ⟨.deleteChannel channelId, faults⟩ hs)
  | bindOrigin principal requestId origin =>
    exact hquiet (journaled_call ⟨.bindOrigin principal requestId origin, faults⟩ hs)
  | pruneRetention env retentionDays =>
    exact hquiet (journaled_call ⟨.pruneRetention env retentionDays, faults⟩ hs)
  | createRequest env req metadata =>
    exact Prog.exec_post (R := fun r => NoAnswers s r.2)
      (transactional_createRequest P env req metadata) (fun _ _ he _ => he)
      (fun _ _ h => noAnswers_created h) faults
  | cancelRequest env requestId =>
    exact Prog.exec_post (R := fun r => NoAnswers s r.2) (transactional_cancelRequest P env requestId)
      (fun _ _ he _ => he) (fun _ _ h => noAnswers_cancelled h) faults
  | expireDueRequests env =>
    exact Prog.exec_post (R := fun r => NoAnswers s r.2) (transactional_expireDueRequests P env)
      (fun _ _ he _ => he) (fun _ _ h => noAnswers_swept hs.toTables h) faults
  | recordDecision env submission => cases h

/-- A decision that a call adds is that of an accepted submission. -/
theorem recorded_of_new {c : Call} {s : Db} (hs : WellFormed P s) {id : String}
    {decision : Decision} (hnew : decision ∈ (c.after P s).storedDecisions id)
    (hold : decision ∉ s.storedDecisions id) :
    ∃ env submission request option signature signed,
      c.op = .recordDecision env submission ∧ submission.requestId = id ∧
      Checked P env submission s request option ∧
      Signed P env submission request option s signature signed ∧
      decision = decisionOf submission option signature (env.now 1) := by
  have hmoves := moves_call c hs
  have hs' := hmoves.wellFormed hs
  obtain ⟨row', hrow'⟩ := stored_of_mem_storedDecisions hs' hnew
  obtain ⟨e, he, hkind, hdecision⟩ := (mem_storedDecisions_iff hs' hrow' decision).mp hnew
  obtain ⟨hmem, hid⟩ := List.mem_filter.mp he
  have hfresh : e ∉ s.events.rows := by
    intro hseen
    have heOld : e ∈ s.eventsOf id := List.mem_filter.mpr ⟨hseen, hid⟩
    cases hrow : s.requests.get? id with
    | some row =>
      exact hold ((mem_storedDecisions_iff hs hrow decision).mpr ⟨e, heOld, hkind, hdecision⟩)
    | none =>
      -- a request that is gone does not come back
      have hentries : (s.track id).entries ≠ [] :=
        fun hnil => List.ne_nil_of_mem heOld (List.map_eq_nil_iff.mp hnil)
      have hgone := Poll.gone_of_run (rules P) (hs.polls id) (ballot_of_get?_none hrow) hentries
        (Relation.ReflTransGen.single (hmoves.steps id))
      have hballot := ballot_of_get? hrow'
      rw [hgone, ballot_of_get?_none hrow] at hballot
      cases hballot
  obtain ⟨op, faults⟩ := c
  cases hop : op.isDecision with
  | false => exact absurd (noAnswers_call ⟨op, faults⟩ hs hop e hmem hkind) hfresh
  | true =>
    obtain ⟨env, submission, rfl⟩ := isDecision_eq_true.mp hop
    rcases Prog.exec_cases databaseError _ (transactional_recordDecision P env submission) faults s
      with ⟨error, hexec⟩ | ⟨resolved, s', hexec, heval⟩
    · have hafter : Call.after P ⟨.recordDecision env submission, faults⟩ s = s :=
        congrArg Prod.snd hexec
      rw [hafter] at hmem
      exact absurd hmem hfresh
    · have hafter : Call.after P ⟨.recordDecision env submission, faults⟩ s = s' :=
        congrArg Prod.snd hexec
      obtain ⟨request, option, signature, signed, e', hchecked, hsigned, hevents, hrequest,
        hdecision'⟩ := event_of_recorded heval
      rw [hafter, hevents, List.mem_append, List.mem_singleton] at hmem
      have he' : e = e' := hmem.resolve_left hfresh
      rw [he'] at hid hdecision
      rw [hdecision] at hdecision'
      exact ⟨env, submission, request, option, signature, signed, rfl,
        hrequest.symm.trans (of_decide_eq_true hid), hchecked, hsigned, Option.some.inj hdecision'⟩

/-! ## Devices stay as they were enrolled -/

def DevicesKept (s s' : Db) : Prop :=
  ∀ id d, s.devices.get? id = some d → ∃ d', s'.devices.get? id = some d' ∧ d'.toDevice = d.toDevice

theorem devicesKept_of_eq {s s' : Db} (h : s'.devices = s.devices) : DevicesKept s s' := by
  intro id d hd
  rw [h]
  exact ⟨d, hd, rfl⟩

theorem devices_call (c : Call) (s : Db) : DevicesKept s (c.after P s) := by
  cases hadmin : c.op.isAdmin with
  | false => exact devicesKept_of_eq (accounts_call c hadmin s).devices
  | true =>
    obtain ⟨op, faults⟩ := c
    cases op with
    | admin op => exact (quiet_admin P op faults s).devices
    | _ => cases hadmin

/-! ## Runs of the service -/

variable (P) in
/-- The database is in order, and the loaded devices are its rows, revoked since or not. -/
structure Service.Inv (s : Service) : Prop where
  wellFormed : WellFormed P s.db
  legible : Legible P s.db
  devices : ∀ device ∈ s.devices,
    ∃ row, s.db.devices.get? device.id = some row ∧ row.toDevice = device

theorem row_of_findDeviceByHash {hash : String} {db : Db} {device : Device}
    (h : findDeviceByHash hash db = some device) :
    ∃ row, db.devices.get? device.id = some row ∧ row.toDevice = device := by
  unfold findDeviceByHash at h
  obtain ⟨row, hrow, rfl⟩ := Option.map_eq_some_iff.mp h
  exact ⟨row, Table.get?_of_mem (List.mem_of_find?_eq_some hrow), rfl⟩

theorem devicesKept_step (s : Service) (c : ServiceCall) :
    DevicesKept s.db (s.step P c).db := by
  unfold Service.step
  cases s.callOf c with
  | none => exact devicesKept_of_eq rfl
  | some call => exact devices_call call _

theorem Service.Inv.step {s : Service} (h : s.Inv P) (c : ServiceCall) : (s.step P c).Inv P where
  wellFormed := wellFormed_run _ h.wellFormed
  legible := legible_run _ h.wellFormed h.legible
  devices device hdevice := by
    have hrow : ∃ row, s.db.devices.get? device.id = some row ∧ row.toDevice = device := by
      rcases List.mem_append.mp hdevice with hold | hnew
      · exact h.devices device hold
      · cases c with
        | requireDevice token => exact row_of_findDeviceByHash (Option.mem_toList.mp hnew)
        | decide request env requestId optionId decision faults => cases hnew
        | other call hcall => cases hnew
    obtain ⟨row, hget, hdev⟩ := hrow
    obtain ⟨row', hget', hdev'⟩ := devicesKept_step s c _ row hget
    exact ⟨row', hget', hdev'.trans hdev⟩

@[simp] theorem serve_nil : serve P [] = Service.empty := rfl

theorem serve_concat (calls : List ServiceCall) (c : ServiceCall) :
    serve P (calls ++ [c]) = (serve P calls).step P c := by
  unfold serve
  rw [List.foldl_append, List.foldl_cons, List.foldl_nil]

theorem inv_serve (calls : List ServiceCall) : (serve P calls).Inv P := by
  induction calls using List.reverseRecOn with
  | nil =>
    exact ⟨wellFormed_empty P, ⟨fun _ _ h => (by cases h), fun _ _ h => (by cases h)⟩,
      fun _ h => absurd h List.not_mem_nil⟩
  | append_singleton calls c ih =>
    rw [serve_concat]
    exact ih.step c

/-! ## The evidence of an accepted submission -/

/-- The digests a card can have been issued under depend on what its create fixed. -/
theorem digestCandidates_issued (r : DecisionRequest) :
    digestCandidates P r.issued = digestCandidates P r := by
  unfold digestCandidates
  by_cases hplain : r.privateRecipients = false ∧ r.answerField = none
  · have hwire : ∀ q : DecisionRequest, q.privateRecipients = false ∧ q.answerField = none →
        q.toWire P.toExternals = { q.toRequest with
          requestDigest := some (requestDigestLegacyLineSnapshot P.toExternals q.toRequest) } := by
      intro q hq
      unfold DecisionRequest.toWire
      rw [if_pos hq]
    rw [hwire r hplain, hwire r.issued hplain]
    rfl
  · have hwire : ∀ q : DecisionRequest, ¬ (q.privateRecipients = false ∧ q.answerField = none) →
        q.toWire P.toExternals = q.toRequest := by
      intro q hq
      unfold DecisionRequest.toWire
      rw [if_neg hq]
    rw [hwire r hplain, hwire r.issued hplain]
    rfl

theorem Evidence.issued {accepted : Db} {r r' : DecisionRequest} {decision : Decision}
    {device : DeviceRow} (h : Evidence P accepted r decision device) (hsame : r'.issued = r.issued) :
    Evidence P accepted r' decision device := by
  have hid : r'.id = r.id := by
    have hid := congrArg DecisionRequest.id hsame
    exact hid
  have hrecipients : r'.recipients = r.recipients := by
    have hrecipients := congrArg DecisionRequest.recipients hsame
    exact hrecipients
  have hoptions : r'.options = r.options := by
    have hoptions := congrArg DecisionRequest.options hsame
    exact hoptions
  have hfield : r'.answerField = r.answerField := by
    have hfield := congrArg DecisionRequest.answerField hsame
    exact hfield
  have hdigests : digestCandidates P r' = digestCandidates P r := by
    rw [← digestCandidates_issued r', ← digestCandidates_issued r, hsame]
  refine ⟨h.registered, h.active, ?_, h.actorDevice, h.actorUser, ?_, ?_, ?_, ?_⟩
  · rw [hid]
    exact h.requestId
  · rw [hdigests]
    exact h.signed
  · rw [hrecipients]
    exact h.recipient
  · unfold OptionStands
    rw [hoptions, hfield]
    exact h.option
  · unfold AnswerStands
    rw [hfield]
    exact h.answer

theorem optionStands_of_choose {request : DecisionRequest} {optionId : String}
    {option : RequestOption} {decision : Decision}
    (h : chooseOption request optionId = .ok option) (hid : decision.optionId = option.id)
    (hkind : decision.optionKind = option.kind) (hlabel : decision.optionLabel = option.label) :
    OptionStands request decision := by
  rw [chooseOption, orElse_eq_ok, Option.or_eq_some_iff] at h
  rcases h with hfound | ⟨-, hdismiss⟩
  · exact .inl ⟨option, List.mem_of_find?_eq_some hfound, hid.symm, hkind.symm, hlabel.symm⟩
  · unfold implicitDismissOption at hdismiss
    split at hdismiss
    · cases hdismiss
    · rename_i hcard
      simp only [not_or, not_not] at hcard
      cases hdismiss
      exact .inr ⟨hcard.2.2, hcard.1, hid, hkind⟩

theorem answerStands_of_policy {request : DecisionRequest} {submission : DecisionSubmission}
    {option : RequestOption} {signature : Option DecisionSignatureRecord} {at_ : DateTime}
    (h : answerPolicy request submission = .ok ()) :
    AnswerStands request (decisionOf submission option signature at_) := by
  unfold AnswerStands
  unfold answerPolicy at h
  dsimp only at h
  cases hfield : request.answerField with
  | some field =>
    rw [hfield] at h
    simp only [bind_eq_ok, refuseIf_eq_ok, mapError_eq_ok, orElse_eq_ok] at h
    obtain ⟨_, -, _, -, answer, hanswer, _, hvalid, -⟩ := h
    exact ⟨answer, hanswer, hvalid⟩
  | none =>
    rw [hfield, refuseIf_eq_ok, not_or, not_not] at h
    exact h.1

/-- What was verified is what the stored fields give. -/
theorem rebuiltPayload_of_valid {request : DecisionRequest} {option : RequestOption}
    {actor : Device} {requestId optionId : String} {decision : SubmitDecisionRequest}
    {provided : DecisionSignature} {payload : String} {at_ : DateTime}
    (hid : request.id = requestId)
    (h : SignatureValid P request option actor (trimmedNotes decision.text) provided
      decision.answerValue payload) :
    rebuiltPayload P (decisionOf (submissionOf actor requestId optionId decision) option
      (some (signatureRecord actor provided provided.requestDigest payload)) at_) = some payload := by
  obtain ⟨t, ht, hpayload⟩ := h.signedAt
  have hrebuilt : rebuiltPayload P (decisionOf (submissionOf actor requestId optionId decision) option
      (some (signatureRecord actor provided provided.requestDigest payload)) at_) =
      match provided.payloadVersion, decision.answerValue with
      | none, none => some (decisionSigningPayload P.toExternals
          (signingInput request option actor (trimmedNotes decision.text) provided
            t.toRfc3339Millis))
      | some version, some answer =>
        if version = valueDecisionPayloadVersion then
          (decisionSigningPayloadV2 (signingInput request option actor (trimmedNotes decision.text)
            provided t.toRfc3339Millis) answer).toOption
        else none
      | _, _ => none := by
    unfold rebuiltPayload decisionOf submissionOf signatureRecord signingInput
    simp only [Option.map_some, Option.bind_eq_bind, Option.bind_some, ht, hid]
  rw [hrebuilt]
  unfold expectedPayload at hpayload
  cases hfield : request.answerField with
  | some field =>
    rw [hfield] at hpayload
    simp only [bind_eq_ok, refuseIf_eq_ok, orElse_eq_ok, not_or, not_not, digestError,
      mapError_eq_ok] at hpayload
    obtain ⟨_, ⟨hversion, -⟩, answer, hanswer, _, -, hsigned⟩ := hpayload
    rw [hversion, hanswer]
    dsimp only
    rw [if_pos rfl, hsigned]
    rfl
  | none =>
    rw [hfield] at hpayload
    simp only [bind_eq_ok, refuseIf_eq_ok, not_or, not_not, pure_eq_ok] at hpayload
    obtain ⟨_, ⟨hanswer, hversion⟩, hsigned⟩ := hpayload
    rw [hversion, hanswer]
    exact congrArg some hsigned

theorem evidence_of_recorded {env : Env} {s : Db} {actor : Device} {row : DeviceRow}
    {requestId optionId : String} {decision : SubmitDecisionRequest} {request : DecisionRequest}
    {option : RequestOption} {signature : Option DecisionSignatureRecord} {signed : Db}
    (hrow : s.devices.get? actor.id = some row) (hdevice : row.toDevice = actor)
    (hchecked : Checked P env (submissionOf actor requestId optionId decision) s request option)
    (hsigned : Signed P env (submissionOf actor requestId optionId decision) request option s
      signature signed) :
    Evidence P s request (decisionOf (submissionOf actor requestId optionId decision) option
      signature (env.now 1)) row := by
  have hid : request.id = requestId := id_of_readRequest P hchecked.read
  have hrowid : row.id = actor.id := Table.key_of_get? hrow
  have huser : row.userId = actor.userId := by rw [← hdevice]; rfl
  have hkeyid : row.signingKeyId = actor.signingKeyId := by rw [← hdevice]; rfl
  have hpublic : row.signingPublicKey = actor.signingPublicKey := by rw [← hdevice]; rfl
  cases hsigned with
  | internal hnone _ => cases hnone
  | device actor' provided payload nonces hactor hprovided _ _ hvalid _ _ =>
    cases hactor
    refine ⟨hrowid ▸ hrow, ?_, hid.symm, congrArg some hrowid.symm, congrArg some huser.symm, ?_, ?_,
      optionStands_of_choose hchecked.option rfl rfl rfl, answerStands_of_policy hchecked.policy⟩
    · have hactive := hchecked.active actor rfl
      unfold deviceActive at hactive
      rw [hrow] at hactive
      exact of_decide_eq_true hactive
    · obtain ⟨key, hkey, hverifies⟩ := hvalid.publicKey
      exact ⟨_, payload, key, rfl, rebuiltPayload_of_valid hid hvalid, hkeyid.trans hvalid.keyId,
        hpublic.trans hkey, hverifies, hvalid.digest⟩
    · rw [huser]
      exact hchecked.recipient actor.userId rfl

/-! ## Every stored decision -/

/-- The evidence of the decision that a call of the service adds. -/
theorem evidence_of_new {s : Service} (h : s.Inv P) (c : ServiceCall) {id : String}
    {decision : Decision} (hnew : decision ∈ (s.step P c).db.storedDecisions id)
    (hold : decision ∉ s.db.storedDecisions id) :
    ∃ request row, readRequest P s.db id = .ok request ∧ Evidence P s.db request decision row := by
  unfold Service.step at hnew
  cases hcall : s.callOf c with
  | none =>
    rw [hcall] at hnew
    exact absurd hnew hold
  | some call =>
    rw [hcall] at hnew
    obtain ⟨env, submission, request, option, signature, signed, hop, hid, hchecked, hsigned,
      hdecision⟩ := recorded_of_new h.wellFormed hnew hold
    cases c with
    | requireDevice token => cases hcall
    | other call' hother =>
      cases hcall
      rw [hop] at hother
      cases hother
    | decide number env' requestId optionId submitted faults =>
      obtain ⟨actor, hactor, rfl⟩ := Option.map_eq_some_iff.mp hcall
      cases hop
      obtain ⟨row, hrow, hdevice⟩ := h.devices actor (List.mem_of_getElem? hactor)
      have hread := hchecked.read
      rw [hid] at hread
      rw [hdecision]
      exact ⟨request, row, hread, evidence_of_recorded hrow hdevice hchecked hsigned⟩

/-- In every state the service reaches, every stored decision was accepted from a device, then
    not revoked, and its signature verifies from what is stored. -/
theorem stored_evidence (calls : List ServiceCall) : EvidenceStored P calls := by
  induction calls using List.reverseRecOn with
  | nil =>
    intro id decision hmem
    cases hmem
  | append_singleton calls c ih =>
    intro id decision hmem
    have hinv := inv_serve (P := P) calls
    have hinv' := hinv.step c
    rw [serve_concat] at hmem ⊢
    obtain ⟨row', hrow'⟩ := stored_of_mem_storedDecisions hinv'.wellFormed hmem
    obtain ⟨request', hread'⟩ := hinv'.legible.reads id row' hrow'
    by_cases hold : decision ∈ (serve P calls).db.storedDecisions id
    · obtain ⟨request, hread, earlier, call, later, device, hcalls, hnew, hfirst, hevidence⟩ :=
        ih id decision hold
      have hsame := issued_run hinv.wellFormed _ hread hread'
      refine ⟨request', hread', earlier, call, later ++ [c], device, ?_, hnew, hfirst,
        hevidence.issued hsame⟩
      rw [hcalls, List.append_assoc, List.cons_append]
    · obtain ⟨request, row, hread, hevidence⟩ := evidence_of_new hinv c hmem hold
      have hsame := issued_run hinv.wellFormed _ hread hread'
      exact ⟨request', hread', calls, c, [], row, rfl, hmem, hold, hevidence.issued hsame⟩

end Nod.Server
