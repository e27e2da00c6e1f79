import Nod.Client.SignedCopies
import Nod.Server.Accounts
import Nod.Server.ForeignCopies

/-
  The service and the clients of one device together. The service stores decisions, from any calls in
  any order; the clients submit answers, each against any server and beside any sync task, and the
  holder of the key signs what they ask it to sign. What is sent in between can be anything but a
  signature that nobody has asked for.
  Proved: `consent_kept`. Every stored decision of a device is the answer that its user gave to a copy
  showing the stored card, and no two of them go back to one submission.
-/

namespace Nod.Server

open Lib Nod.Proto

variable {P : Packages}

/-! ## One decision for a nonce -/

/-- The device, key and nonce that a decision was accepted with. -/
def nonceOf (decision : Decision) : Option (String × String × String) :=
  decision.signature.bind fun record => decision.actorDeviceId.map fun deviceId =>
    (deviceId, record.keyId, record.nonce)

/-- Every stored decision has used up a nonce, and no two the same. -/
structure NoncesSpent (s : Db) : Prop where
  used : ∀ id decision, decision ∈ s.storedDecisions id →
    ∃ key, nonceOf decision = some key ∧ key ∈ s.usedNonces
  once : ∀ id decision id' decision', decision ∈ s.storedDecisions id →
    decision' ∈ s.storedDecisions id' → nonceOf decision = nonceOf decision' →
      id = id' ∧ decision = decision'

section

variable {s : Service} {c : ServiceCall} {id id' optionId optionId' : String}
  {decision decision' : Decision} {env env' : Env} {actor actor' : Device}
  {submitted submitted' : SubmitDecisionRequest} {request request' : DecisionRequest}
  {option option' : RequestOption} {signature signature' : Option DecisionSignatureRecord}
  {signed signed' : Db}

/-- The payload of an accepted signature is determined. -/
theorem SignatureValid.payload_unique {text : Option String} {provided : DecisionSignature}
    {answer : Option AnswerValue} {payload payload' : String}
    (h : SignatureValid P request option actor text provided answer payload)
    (h' : SignatureValid P request option actor text provided answer payload') :
    payload = payload' := by
  obtain ⟨t, ht, hpayload⟩ := h.signedAt
  obtain ⟨t', ht', hpayload'⟩ := h'.signedAt
  rw [ht] at ht'
  cases ht'
  rw [hpayload] at hpayload'
  exact Except.ok.inj hpayload'

/-- A call of the service accepts one decision at most. -/
theorem AcceptedBy.unique
    (h : AcceptedBy P s c id decision env actor optionId submitted request option signature signed)
    (h' : AcceptedBy P s c id' decision' env' actor' optionId' submitted' request' option' signature'
      signed') : id = id' ∧ decision = decision' := by
  obtain ⟨faults, hcall⟩ := h.call
  obtain ⟨faults', hcall'⟩ := h'.call
  rw [hcall] at hcall'
  have hop := congrArg Call.op (Option.some.inj hcall')
  injection hop with henv hsubmission
  injection hsubmission with hid hoption hactor _ hsubmitted
  cases henv
  cases hid
  cases hoption
  cases hactor
  cases hsubmitted
  have hread := h.checked.read.symm.trans h'.checked.read
  cases hread
  have hchosen := h.checked.option.symm.trans h'.checked.option
  cases hchosen
  refine ⟨rfl, ?_⟩
  rw [h.decision, h'.decision]
  obtain ⟨hnone, -⟩ | ⟨a, provided, payload, _, ha, hprovided, -, -, hvalid, -, -⟩ := h.signed
  · cases hnone
  · obtain ⟨hnone, -⟩ | ⟨a', provided', payload', _, ha', hprovided', -, -, hvalid', -, -⟩ := h'.signed
    · cases hnone
    · rw [ha] at ha'
      cases ha'
      rw [hprovided] at hprovided'
      cases hprovided'
      rw [hvalid.payload_unique hvalid']

/-- The nonce of a decision that a call adds was free before. -/
theorem AcceptedBy.nonce
    (h : AcceptedBy P s c id decision env actor optionId submitted request option signature signed)
    (hnew : decision ∈ (s.step P c).db.storedDecisions id)
    (hold : decision ∉ s.db.storedDecisions id) : ∃ key, nonceOf decision = some key ∧
      key ∉ s.db.usedNonces ∧ (s.step P c).db.usedNonces = s.db.usedNonces ++ [key] := by
  obtain ⟨faults, hcall⟩ := h.call
  have hstep : (s.step P c).db = (Prog.exec databaseError
      (recordDecision P env (submissionOf actor id optionId submitted)) faults s.db).2 := by
    unfold Service.step
    rw [hcall]
    rfl
  obtain ⟨e, he⟩ | ⟨resolved, s', hexec, heval⟩ := Prog.exec_cases databaseError _
    (transactional_recordDecision P env (submissionOf actor id optionId submitted)) faults s.db
  · rw [hstep, he] at hnew
    exact absurd hnew hold
  · obtain ⟨hused, hfree⟩ := recorded_usedNonces heval
    obtain ⟨hnone, -⟩ | ⟨a, provided, payload, _, ha, hprovided, -, -, hvalid, -, -⟩ := h.signed
    · cases hnone
    · cases ha
      have hkey : (submissionOf actor id optionId submitted).nonceKey =
          some (actor.id, provided.keyId, provided.nonce) := by
        unfold DecisionSubmission.nonceKey
        rw [hprovided]
        rfl
      rw [hkey] at hused hfree
      refine ⟨(actor.id, provided.keyId, provided.nonce), ?_, Table.get?_eq_none.mp (hfree _ rfl), ?_⟩
      · rw [h.decision]
        rfl
      · rw [hstep, hexec]
        exact hused

theorem usedNonces_step (h : s.Inv P) {key : String × String × String}
    (hkey : key ∈ s.db.usedNonces) : key ∈ (s.step P c).db.usedNonces := by
  unfold Service.step
  dsimp only
  rw [usedNonces_run _ h.wellFormed]
  exact List.mem_append_left _ hkey

theorem noncesSpent_step (h : s.Inv P) (hs : NoncesSpent s.db) : NoncesSpent (s.step P c).db where
  used id decision hmem := by
    by_cases hold : decision ∈ s.db.storedDecisions id
    · obtain ⟨key, hkey, hused⟩ := hs.used id decision hold
      exact ⟨key, hkey, usedNonces_step h hused⟩
    · obtain ⟨_, _, _, _, _, _, _, _, haccepted⟩ := acceptedBy_of_new h c hmem hold
      obtain ⟨key, hkey, -, hused⟩ := haccepted.nonce hmem hold
      rw [hused]
      exact ⟨key, hkey, List.mem_append_right _ List.mem_cons_self⟩
  once id decision id' decision' hmem hmem' hsame := by
    -- a decision that was there has a nonce that was used, a new one a nonce that was not
    have happart : ∀ {id id' decision decision'}, decision ∈ s.db.storedDecisions id →
        decision' ∈ (s.step P c).db.storedDecisions id' → decision' ∉ s.db.storedDecisions id' →
        nonceOf decision ≠ nonceOf decision' := by
      intro id id' decision decision' hold hmem' hnew heq
      obtain ⟨key, hkey, hused⟩ := hs.used id decision hold
      obtain ⟨_, _, _, _, _, _, _, _, haccepted⟩ := acceptedBy_of_new h c hmem' hnew
      obtain ⟨key', hkey', hfree, -⟩ := haccepted.nonce hmem' hnew
      rw [hkey, hkey'] at heq
      cases heq
      exact hfree hused
    by_cases hold : decision ∈ s.db.storedDecisions id
    · by_cases hold' : decision' ∈ s.db.storedDecisions id'
      · exact hs.once id decision id' decision' hold hold' hsame
      · exact absurd hsame (happart hold hmem' hold')
    · by_cases hold' : decision' ∈ s.db.storedDecisions id'
      · exact absurd hsame.symm (happart hold' hmem hold)
      · obtain ⟨_, _, _, _, _, _, _, _, haccepted⟩ := acceptedBy_of_new h c hmem hold
        obtain ⟨_, _, _, _, _, _, _, _, haccepted'⟩ := acceptedBy_of_new h c hmem' hold'
        exact haccepted.unique haccepted'

theorem noncesSpent_serve (calls : List ServiceCall) : NoncesSpent (serve P calls).db := by
  induction calls using List.reverseRecOn with
  | nil =>
    refine ⟨?_, ?_⟩
    · intro id decision h
      cases h
    · intro id decision id' decision' h
      cases h
  | append_singleton calls c ih =>
    rw [serve_concat]
    exact noncesSpent_step (inv_serve calls) ih

end

/-! ## Devices -/

/-- A call that leaves the ids of devices uuids. -/
def KeepsUuids (s s' : Db) : Prop :=
  (∀ d ∈ s.devices.rows, isUuid d.id = true) → ∀ d ∈ s'.devices.rows, isUuid d.id = true

theorem keepsUuids_of_kept {s s' : Db} (h : EnrollmentKept s s') : KeepsUuids s s' := by
  intro hs d hd
  have hmem : (d.id, d.userId) ∈ s.devices.rows.map fun d => (d.id, d.userId) := by
    rw [← h.devices]
    exact List.mem_map_of_mem hd
  obtain ⟨d', hd', hsame⟩ := List.mem_map.mp hmem
  rw [← (Prod.mk.inj hsame).1]
  exact hs d' hd'

theorem keepsUuids_insertDevice {row : DeviceRow} (hrow : isUuid row.id = true) {s s' : Db} {u : Unit}
    (h : insertDevice row s = some (u, s')) : KeepsUuids s s' := by
  unfold insertDevice at h
  split at h
  · cases h
  · obtain ⟨devices, hdevices, hdb⟩ := Option.map_eq_some_iff.mp h
    cases hdb
    intro hs d hd
    have hrows := (Table.insert?_eq_some.mp hdevices).2
    dsimp only at hd
    rw [hrows, List.mem_append, List.mem_singleton] at hd
    obtain hd | rfl := hd
    · exact hs d hd
    · exact hrow

theorem isUuid_enrolledDevice (env : Env) (userId : String) (push : PushRegistration)
    (key : DeviceSigningKeyRequest) : isUuid (enrolledDevice P env userId push key).id = true :=
  env.newId_uuid 0

theorem within_uuids_redeemCode (env : Env) (codeHash : String) (push : PushRegistration)
    (key : DeviceSigningKeyRequest) :
    Prog.Within KeepsUuids false false (redeemCode P env codeHash push key) := by
  have hread : ∀ {α : Type} (f : Db → α), Prog.Within KeepsUuids true true (Prog.query f : Sql α) :=
    fun f => (within_txRead f).mono fun _ _ h => keepsUuids_of_kept (enrollmentKept_stmt h)
  refine Prog.within_bind Prog.within_beginTx fun _ => ?_
  refine Prog.within_bind (hread _) fun _ => ?_
  refine Prog.within_bind (Prog.within_lift _) fun code => ?_
  refine Prog.within_bind (Prog.within_lift _) fun expiresAt => ?_
  refine Prog.within_bind (Prog.within_lift _) fun _ => ?_
  refine Prog.within_bind (hread _) fun _ => ?_
  refine Prog.within_bind (Prog.within_lift _) fun _ => ?_
  refine Prog.within_bind (Prog.within_onTx fun s _ s' h => ?_) fun _ => ?_
  · cases h
    exact fun hs => hs
  refine Prog.within_bind (Prog.within_lift _) fun _ => ?_
  refine Prog.within_bind
    (Prog.within_onTx fun _ _ _ h =>
      keepsUuids_insertDevice (isUuid_enrolledDevice env code.userId push key) h) fun _ => ?_
  refine Prog.within_bind Prog.within_commitTx fun _ => ?_
  exact Prog.within_pure _

theorem within_uuids_enrollDevice (env : Env) (req : EnrollDeviceRequest) :
    Prog.Within KeepsUuids false false (enrollDevice P env req) := by
  have hkept : ∀ {α : Type} {p : Sql α}, Prog.Within AdminStmt false false p →
      Prog.Within KeepsUuids false false p :=
    fun h => h.mono fun _ _ hstmt => keepsUuids_of_kept (enrollmentKept_stmt hstmt)
  refine Prog.within_lift_bind fun checked _ => ?_
  obtain ⟨push, key⟩ := checked
  refine Prog.within_bind (within_uuids_redeemCode _ _ _ _) fun redeemed => ?_
  refine Prog.within_bind (hkept (within_listChannelsForDevice P redeemed.deviceId)) fun _ => ?_
  refine Prog.within_bind (hkept (within_listUserDevices P redeemed.userId redeemed.deviceId)) fun _ => ?_
  exact Prog.within_pure _

theorem keepsUuids_call (c : Call) (s : Db) : KeepsUuids s (c.after P s) := by
  cases hop : c.op.isEnroll with
  | false => exact keepsUuids_of_kept (enrolled_call c hop s)
  | true =>
    obtain ⟨op, faults⟩ := c
    cases op with
    | admin op =>
      cases op with
      | enrollDevice env req =>
        change KeepsUuids s (Prog.exec databaseError (enrollDevice P env req) faults s).2
        exact Prog.exec_within (fun _ hs => hs) (fun h k hs => k (h hs))
          (within_uuids_enrollDevice env req) Prod.mk.eta.symm
      | _ => cases hop
    | _ => cases hop

theorem isUuid_of_run (calls : List Call) {s : Db} (hs : ∀ d ∈ s.devices.rows, isUuid d.id = true) :
    ∀ d ∈ (run P calls s).devices.rows, isUuid d.id = true := by
  induction calls generalizing s with
  | nil => exact hs
  | cons c calls ih =>
    rw [run_cons]
    exact ih (keepsUuids_call c s hs)

/-! ## Ids of stored cards -/

theorem validId_of_validateOptions {seen : List String} {options : List RequestOption}
    (h : validateOptions seen options = .ok ()) :
    ∀ id ∈ options.map RequestOption.id, ∃ label, validateId id label = .ok () := by
  induction options generalizing seen with
  | nil => exact fun _ hid => absurd hid List.not_mem_nil
  | cons option options ih =>
    simp only [validateOptions, bind_eq_ok] at h
    obtain ⟨_, hid, _, -, _, -, hrest⟩ := h
    rw [List.map_cons, List.forall_mem_cons]
    exact ⟨⟨_, hid⟩, ih hrest⟩

namespace StoredCard

variable (card : StoredCard P)

theorem validId : ∃ label, validateId card.request.id label = .ok () := by
  obtain ⟨env, req, creator, row, version, digest, -, -, hreads, hmem, -⟩ := card.created
  obtain ⟨huuid, -⟩ := createdAt_of_stored (wellFormed_run_empty (P := P) card.calls) hmem
  rw [hreads.id]
  exact ⟨"request id", validateId_of_isUuid huuid _⟩

theorem validOptionIds : ∀ option ∈ card.request.options,
    ∃ label, validateId option.id label = .ok () := by
  obtain ⟨row, version, digest, hrow, hreads⟩ := (readRequest_eq_ok P).mp card.stored
  have hgood := ((wellFormed_run_empty (P := P) card.calls).good hrow).1
  obtain ⟨env, req, creator, -, -, -, -, hvalid, -, hoptions, -⟩ := hgood.admitted.accepted
  have hid : row.id = card.request.id := Table.key_of_get? hrow
  have hstored : card.request.options = normalizeOptions req.options := by
    rw [hreads.request, ← hoptions, ← hid]
    exact options_relatedOf _ row.id
  intro option hoption
  refine validId_of_validateOptions hvalid option.id ?_
  rw [← map_id_normalizeOptions, ← hstored]
  exact List.mem_map_of_mem hoption

end StoredCard

/-! ## Sessions -/

variable (P) in
/-- One submission of a client, as far as it has got. -/
structure Session where
  device : Client.Device
  nonce : String
  signedAt : DateTime
  params : Client.SubmitRequestOptionParams
  start : Client.StateReducer
  config : Client.Reached P.toExternals device nonce signedAt params start

namespace Session

variable (q : Session P)

/-- The key's holder has been asked to sign the payload. -/
def Asked (payload : String) : Prop := .asked (.sign payload) ∈ q.config.val.trace

/-- The client submits as this device, under a nonce that it has drawn. -/
structure Of (row : DeviceRow) : Prop where
  nonce : isUuid q.nonce = true
  profile : ∀ profile key, q.device.serverProfile q.params.serverId = .ok profile →
    q.device.deviceSignerFor profile = .ok (some key) →
      profile.userId = some row.userId ∧ profile.deviceId = some row.id ∧
        row.signingKeyId = some key.keyId

/-- A copy that the client held or was sent, with the digest that the user was shown. -/
def Reviewed (content : Request) : Prop :=
  (∃ profile, q.device.serverProfile q.params.serverId = .ok profile ∧
    (Client.HeldLocally profile.id q.params.requestId q.config.val.trace content ∨
      Client.Fetched q.config.val.trace content)) ∧
  Client.digestsOf P.toExternals content =
    .ok (Text.trim q.params.expectedRequestDigest, Text.trim q.params.expectedRequestDigest)

/-- The decision is the user's answer to a copy that shows the card. -/
structure Consents (content : Request) (r : DecisionRequest) (decision : Decision)
    (record : DecisionSignatureRecord) : Prop where
  reviewed : q.Reviewed content
  shows : Shows content r
  offered : Client.Offers content ⟨decision.optionId, decision.optionKind⟩
  optionId : decision.optionId = q.params.optionId
  answer : decision.answerValue = q.params.answerValue
  text : decision.text = trimmedNotes q.params.text
  digest : record.requestDigest = Text.trim q.params.expectedRequestDigest
  nonce : record.nonce = q.nonce

end Session

/-- The signature that comes with a call. -/
def ServiceCall.sent : ServiceCall → Option String
  | .decide _ _ _ _ decision _ => decision.signature.map DecisionSignature.signature
  | _ => none

/-- No signature that has been sent verifies under the key for a payload that no session has asked
    for. -/
def Unforged (calls : List ServiceCall) (key : String) (sessions : Set (Session P)) : Prop :=
  ∀ signature ∈ calls.filterMap ServiceCall.sent, ∀ payload,
    verifyPayload P.toExternals key payload signature = .ok () → ∃ q ∈ sessions, q.Asked payload

/-- The hash tells the copies that were reviewed from the cards that are stored, and the notes that
    were written from those that are stored. -/
def TellsReviewedApart (s : Db) (sessions : Set (Session P)) : Prop :=
  ∀ q ∈ sessions,
    (∀ id r content, readRequest P s id = .ok r → q.Reviewed content → TellsCopyApart P content r) ∧
    ∀ id decision, decision ∈ s.storedDecisions id →
      TellsApart P.toExternals ((trimmedNotes q.params.text).getD "") (decision.text.getD "")

/-- A stored decision of a device, with the id of its request. -/
abbrev StoredBy (s : Db) (row : DeviceRow) : Type :=
  {x : String × Decision // x.2 ∈ s.storedDecisions x.1 ∧ x.2.actorDeviceId = some row.id}

/-- Every stored decision of the device has a session of its own, and is what the user consented to
    there. -/
def Agrees (s : Db) (row : DeviceRow) (sessions : Set (Session P)) : Prop :=
  ∃ sessionOf : StoredBy s row → Session P, Function.Injective sessionOf ∧
    ∀ x, sessionOf x ∈ sessions ∧ ∃ content r record, readRequest P s x.val.1 = .ok r ∧
      x.val.2.signature = some record ∧ (sessionOf x).Consents content r x.val.2 record

variable (P) in
/-- The decisions of a device agree with the sessions of its clients, if nobody else signs under its
    key. -/
def ConsentKept (calls : List ServiceCall) : Prop :=
  ∀ row ∈ (serve P calls).db.devices.rows, ∀ key, row.signingPublicKey = some key →
    ∀ sessions : Set (Session P), (∀ q ∈ sessions, q.Of row) → Unforged calls key sessions →
      TellsReviewedApart (serve P calls).db sessions → Agrees (serve P calls).db row sessions

/-! ## One decision -/

/-- The signature that is kept with a decision has been sent. -/
theorem sent_of_stored (calls : List ServiceCall) {id : String} {decision : Decision}
    (hmem : decision ∈ (serve P calls).db.storedDecisions id) :
    ∃ record, decision.signature = some record ∧
      record.signature ∈ calls.filterMap ServiceCall.sent := by
  induction calls using List.reverseRecOn with
  | nil => cases hmem
  | append_singleton calls c ih =>
    rw [List.filterMap_append]
    by_cases hold : decision ∈ (serve P calls).db.storedDecisions id
    · obtain ⟨record, hrecord, hsent⟩ := ih hold
      exact ⟨record, hrecord, List.mem_append_left _ hsent⟩
    · rw [serve_concat] at hmem
      obtain ⟨env, actor, optionId, submitted, request, option, signature, signed, haccepted⟩ :=
        acceptedBy_of_new (inv_serve calls) c hmem hold
      obtain ⟨faults, hcall⟩ := haccepted.call
      have hsent : c.sent = submitted.signature.map DecisionSignature.signature := by
        cases c with
        | requireDevice token => cases hcall
        | other call hother =>
          cases hcall
          cases hother
        | decide number env' requestId optionId' submitted' faults' =>
          obtain ⟨actor', -, hsame⟩ := Option.map_eq_some_iff.mp hcall
          injection hsame with hop
          injection hop with _ hsubmission
          injection hsubmission with _ _ _ _ hsubmitted
          rw [← hsubmitted]
          rfl
      rw [haccepted.decision]
      obtain ⟨hnone, -⟩ | ⟨a, provided, payload, _, ha, hprovided, -, -, -, -, -⟩ := haccepted.signed
      · cases hnone
      · have hsubmitted : submitted.signature = some provided := hprovided
        refine ⟨_, rfl, List.mem_append_right _ (List.mem_filterMap.mpr ⟨c, List.mem_cons_self, ?_⟩)⟩
        rw [hsent, hsubmitted]
        rfl

/-- The input behind the payload that is kept with a decision. -/
def sealedInput (decision : Decision) (device : Device) (record : DecisionSignatureRecord)
    (signedAt : String) : DecisionSigningInput :=
  { requestId := decision.requestId, requestDigest := record.requestDigest
    optionId := decision.optionId, optionKind := decision.optionKind, userId := device.userId
    deviceId := device.id, keyId := record.keyId, nonce := record.nonce, signedAt
    text := decision.text }

section

variable {card : StoredCard P} {decision : Decision} {row : DeviceRow}
  {record : DecisionSignatureRecord} {key : String}

/-- The two kinds of payload, each of cards of its own. -/
theorem payload_of_sealed (h : Sealed P card.request decision row.toDevice record key) :
    ∃ t : DateTime, (decision.answerValue = none ∧ card.request.answerField = none ∧
        record.signingPayload = decisionSigningPayload P.toExternals
          (sealedInput decision row.toDevice record t.toRfc3339Millis)) ∨
      ∃ answer, decision.answerValue = some answer ∧ card.request.answerField ≠ none ∧
        record.signingPayload =
          valuePayloadText (sealedInput decision row.toDevice record t.toRfc3339Millis) answer := by
  obtain ⟨t, -, hrebuilt⟩ := h.rebuilt
  refine ⟨t, ?_⟩
  unfold rebuildPayload at hrebuilt
  split at hrebuilt
  · simp only [bind_eq_ok, refuseIf_eq_ok, pure_eq_ok, not_or, not_not, answerField_toWire] at hrebuilt
    obtain ⟨_, ⟨hanswer, hfield⟩, hpayload⟩ := hrebuilt
    exact .inl ⟨hanswer, hfield, hpayload.symm⟩
  · split at hrebuilt
    · simp only [bind_eq_ok, orElse_eq_ok, mapError_eq_ok, decisionSigningPayloadV2_eq_ok] at hrebuilt
      obtain ⟨answer, hanswer, -, -, hpayload⟩ := hrebuilt
      refine .inr ⟨answer, hanswer, ?_, hpayload.symm⟩
      intro hfield
      have hstands := h.answer
      unfold AnswerStands at hstands
      rw [hfield, hanswer] at hstands
      cases hstands
    · cases hrebuilt

/-- The server's own input has valid ids. -/
theorem acceptedInput_of_sealed (h : Sealed P card.request decision row.toDevice record key)
    (hdevice : isUuid row.id = true) (hkeyed : Keyed P row) (t : DateTime) :
    AcceptedInput (sealedInput decision row.toDevice record t.toRfc3339Millis) where
  ids := by
    obtain ⟨keyId, label, hkeyId, hvalid⟩ := hkeyed.keyId
    have hsame : some keyId = some record.keyId := hkeyId.symm.trans h.keyId
    cases hsame
    obtain ⟨option, hoption, -⟩ := h.option
    obtain ⟨-, -, -, -, -, -, -, -, -, -, hrecipients⟩ := card.created
    refine ⟨?_, ?_, hrecipients _ h.recipient, ⟨"", validateId_of_isUuid hdevice ""⟩, label, hvalid⟩
    · show ∃ label, validateId decision.requestId label = .ok ()
      rw [h.requestId]
      exact card.validId
    · obtain ⟨o, ho, hid, -⟩ | ⟨-, -, hid, -⟩ :=
        @optionStands_of_choose card.request _ option
          { decision with optionLabel := option.label, optionKind := option.kind } hoption
          (id_of_chooseOption hoption).symm rfl rfl
      · have hvalid := card.validOptionIds o ho
        rw [hid] at hvalid
        exact hvalid
      · have hdismiss : decision.optionId = "dismiss" := hid
        show ∃ label, validateId decision.optionId label = .ok ()
        rw [hdismiss]
        exact ⟨"", by decide⟩
  digest := by
    obtain ⟨candidates, hcandidates, hmem⟩ := h.digest
    exact isLowerHex_of_digestCandidates hcandidates _ hmem
  signedAt := ⟨t, rfl⟩

variable {q : Session P} {content : Request} {device : Client.DeviceKey} {option : Client.OptionRef}
  {input : DecisionSigningInput} {payload : String}

/-- A payload that a session has asked for. -/
abbrev Session.SignsAnswer (q : Session P) (content : Request) (device : Client.DeviceKey)
    (option : Client.OptionRef) (input : DecisionSigningInput) (payload : String) : Prop :=
  Client.SignsAnswer P.toExternals q.device q.nonce q.signedAt q.params q.config.val.trace content
    device option input payload

theorem reviewed_of_signsAnswer (h : q.SignsAnswer content device option input payload) :
    q.Reviewed content := by
  obtain ⟨profile, hprofile, -, -, -, hcopy⟩ := h.copy
  refine ⟨⟨profile, hprofile, hcopy⟩, ?_⟩
  rw [← h.rendered]
  exact h.digest

theorem signs_of_signsAnswer (h : q.SignsAnswer content device option input payload) :
    Client.Signs P.toExternals content input.requestDigest :=
  Client.signs_iff.mpr ⟨h.digest, h.nonempty, q.params.answerValue, q.params.optionId, option, h.fits,
    h.offered⟩

/-- The ids of an enrolled device, in the payload of its client. -/
theorem actor_of_signsAnswer (h : q.SignsAnswer content device option input payload) (hof : q.Of row) :
    input.userId = row.userId ∧ input.deviceId = row.id ∧ row.signingKeyId = some input.keyId := by
  obtain ⟨profile, hprofile, hkey, huser, hdevice, -⟩ := h.copy
  obtain ⟨huser', hdevice', hkey'⟩ := hof.profile profile device hprofile hkey
  rw [huser] at huser'
  rw [hdevice] at hdevice'
  rw [h.fields]
  exact ⟨Option.some.inj huser', Option.some.inj hdevice', hkey'⟩

/-- Whatever the copy says, what the client fills in is in order. -/
theorem clientInput_of_signsAnswer (h : q.SignsAnswer content device option input payload)
    (hof : q.Of row) (hdevice : isUuid row.id = true) (hkeyed : Keyed P row)
    (huser : ∃ label, validateId row.userId label = .ok ()) : ClientInput P.toExternals input where
  digest := ⟨_, (signs_of_signsAnswer h).text.1⟩
  userId := by
    rw [(actor_of_signsAnswer h hof).1]
    exact free_id huser
  deviceId := by
    rw [(actor_of_signsAnswer h hof).2.1]
    exact hdevice
  keyId := by
    obtain ⟨keyId, label, hkeyId, hvalid⟩ := hkeyed.keyId
    have hsame := hkeyId.symm.trans (actor_of_signsAnswer h hof).2.2
    cases hsame
    exact free_id ⟨label, hvalid⟩
  nonce := by
    rw [h.fields]
    exact hof.nonce
  signedAt := ⟨q.signedAt, by rw [h.fields]⟩

theorem answerField_of_checkAnswer (h : Client.checkAnswer content none = .ok ()) :
    content.answerField = none := by
  cases hfield : content.answerField with
  | none => rfl
  | some field =>
    unfold Client.checkAnswer at h
    rw [hfield] at h
    simp only [bind_eq_ok, orElse_eq_ok] at h
    obtain ⟨_, -, _, hanswer, -⟩ := h
    cases hanswer

/-- An offered option of a copy that shows the card is one of the card. -/
theorem validId_of_offered (hshows : Shows content card.request) (h : Client.Offers content option) :
    ∃ label, validateId option.id label = .ok () := by
  obtain ⟨o, ho, hid, -⟩ | ⟨-, -, rfl⟩ := h
  · rw [hshows.options] at ho
    exact hid ▸ card.validOptionIds o ho
  · exact ⟨"", by decide⟩

/-- The same payload fields, text and answer: the same decision. -/
theorem consents_of_sameFields (h : q.SignsAnswer content device option input payload)
    (hseal : Sealed P card.request decision row.toDevice record key) (hshows : Shows content card.request)
    {signedAt : String} (hsame : SameFields input (sealedInput decision row.toDevice record signedAt))
    (htext : trimmedNotes input.text = trimmedNotes decision.text)
    (hanswer : q.params.answerValue = decision.answerValue) :
    q.Consents content card.request decision record := by
  obtain ⟨hoptionId, hoffers⟩ := Client.offers_of_optionFor h.offered
  have hfields := h.fields
  have hoption : option = ⟨decision.optionId, decision.optionKind⟩ := by
    have hid := hsame.optionId
    have hkind := hsame.optionKind
    rw [hfields] at hid hkind
    cases option
    exact congrArg₂ Client.OptionRef.mk hid hkind
  refine ⟨reviewed_of_signsAnswer h, hshows, hoption ▸ hoffers, ?_, hanswer.symm, ?_, ?_, ?_⟩
  · rw [← hoptionId, hoption]
  · have hnotes : input.text = trimmedNotes q.params.text := by rw [hfields]
    rw [hnotes, Client.trimmedNotes_trimmedNotes, hseal.text] at htext
    exact htext.symm
  · exact hsame.requestDigest.symm.trans h.rendered
  · have hnonce : input.nonce = q.nonce := by rw [hfields]
    exact hsame.nonce.symm.trans hnonce

/-- A stored decision whose payload a session has asked for. -/
theorem consents_of_signsAnswer (h : q.SignsAnswer content device option input record.signingPayload)
    (hof : q.Of row) (hdevice : isUuid row.id = true) (hkeyed : Keyed P row)
    (hseal : Sealed P card.request decision row.toDevice record key)
    (hcopy : TellsCopyApart P content card.request)
    (hnotes : TellsApart P.toExternals ((trimmedNotes q.params.text).getD "")
      (decision.text.getD "")) : q.Consents content card.request decision record := by
  obtain ⟨-, -, -, -, -, -, -, -, -, -, hrecipients⟩ := card.created
  have hclient := clientInput_of_signsAnswer h hof hdevice hkeyed (hrecipients _ hseal.recipient)
  obtain ⟨candidates, hcandidates, hmem⟩ := hseal.digest
  obtain ⟨t, hkind⟩ := payload_of_sealed hseal
  have haccepted := acceptedInput_of_sealed hseal hdevice hkeyed t
  have hsigned := h.payload
  have hshows : input.requestDigest = record.requestDigest →
      (card.request.answerField = none → content.answerField = none) → Shows content card.request := by
    intro hdigest hfield
    rw [← hdigest] at hmem
    exact shows_of_digest (signs_of_signsAnswer h) hcandidates hmem hfield hcopy
  cases hanswer : q.params.answerValue with
  | none =>
    rw [hanswer] at hsigned
    have hpayload := Except.ok.inj hsigned
    obtain ⟨hnone, -, hstored⟩ | ⟨answer, -, -, hstored⟩ := hkind
    · have hequal := hpayload.trans hstored
      have hfits := h.fits
      rw [hanswer] at hfits
      have hcard := hshows (requestDigest_of_payload hclient haccepted hseal.nonce hequal)
        fun _ => answerField_of_checkAnswer hfits
      -- the copy shows the card, so its ids are as good as those of the card
      have hoffered := Client.offers_of_optionFor h.offered
      have hinput : AcceptedInput input := by
        refine ⟨⟨?_, ?_, ?_, ?_, ?_⟩, isLowerHex_of_sha256Hex hclient.digest.choose_spec, hclient.signedAt⟩
        · rw [h.fields]
          exact hcard.id ▸ card.validId
        · rw [h.fields]
          exact validId_of_offered hcard hoffered.2
        · rw [(actor_of_signsAnswer h hof).1]
          exact hrecipients _ hseal.recipient
        · rw [(actor_of_signsAnswer h hof).2.1]
          exact ⟨"", validateId_of_isUuid hdevice ""⟩
        · have hkey := (actor_of_signsAnswer h hof).2.2
          obtain ⟨keyId, label, hkeyId, hvalid⟩ := hkeyed.keyId
          rw [hkeyId] at hkey
          exact ⟨label, Option.some.inj hkey ▸ hvalid⟩
      obtain ⟨hsame, htext⟩ := decisionSigningPayload_inj hinput haccepted hequal
      have hinputText : input.text = trimmedNotes q.params.text := by rw [h.fields]
      have hsameText : trimmedNotes input.text = trimmedNotes decision.text := by
        rw [hinputText] at htext ⊢
        rw [← trimmedNotes_getD (trimmedNotes q.params.text), hnotes htext, trimmedNotes_getD]
      exact consents_of_sameFields h hseal hcard hsame hsameText (hanswer.trans hnone.symm)
    · exact absurd (hstored.symm.trans hpayload.symm) (valuePayloadText_ne _ _ _ _)
  | some answer =>
    rw [hanswer] at hsigned
    obtain ⟨-, -, hpayload⟩ := decisionSigningPayloadV2_eq_ok.mp (mapError_eq_ok.mp hsigned)
    obtain ⟨-, -, hstored⟩ | ⟨stored, hsome, hfield, hstored⟩ := hkind
    · exact absurd (hpayload.trans hstored) (valuePayloadText_ne _ _ _ _)
    · obtain ⟨hsame, htext, hvalue⟩ := valuePayloadText_inj (hpayload.trans hstored)
      have hcard := hshows hsame.requestDigest fun hnone => absurd hnone hfield
      exact consents_of_sameFields h hseal hcard hsame htext (by rw [hanswer, hsome, hvalue])

end

/-! ## Every run -/

/-- Whatever servers, networks and other devices do: a stored decision of a device is the answer that
    its user gave to a copy of the card, and no session is the source of two. -/
theorem consent_kept (calls : List ServiceCall) : ConsentKept P calls := by
  intro row hrow key hkey sessions hof hunforged htells
  obtain ⟨more, hmore⟩ := serve_append (P := P) [] calls
  rw [List.nil_append] at hmore
  have hstored : (serve P calls).db = run P more Db.empty := hmore
  have hdevice : isUuid row.id = true := by
    rw [hstored] at hrow
    exact isUuid_of_run more (fun d hd => absurd hd List.not_mem_nil) row hrow
  have hkeyed : Keyed P row := (inv_serve (P := P) calls).wellFormed.keyed row hrow
  obtain ⟨keyId, -, hkeyId, -⟩ := hkeyed.keyId
  have hone : ∀ x : StoredBy (serve P calls).db row, ∃ q : Session P,
      nonceOf x.val.2 = some (row.id, keyId, q.nonce) ∧ q ∈ sessions ∧
        ∃ content r record, readRequest P (serve P calls).db x.val.1 = .ok r ∧
          x.val.2.signature = some record ∧ q.Consents content r x.val.2 record := by
    intro x
    obtain ⟨⟨id, decision⟩, hmem, hactor⟩ := x
    obtain ⟨row', r, record, key', hrow', hread, hseal⟩ := sealedIn_serve calls hmem
    -- the decision is sealed with the key of this very device
    have hid : row'.id = row.id := by
      have hseal := hseal.actorDevice
      rw [hactor] at hseal
      exact (Option.some.inj hseal).symm
    rw [hid, Table.get?_of_mem hrow] at hrow'
    cases hrow'
    have hkey' : key' = key := by
      have hpublic : row.signingPublicKey = some key' := hseal.publicKey
      rw [hkey] at hpublic
      exact (Option.some.inj hpublic).symm
    rw [hkey'] at hseal
    obtain ⟨record', hrecord', hsent⟩ := sent_of_stored calls hmem
    rw [hseal.signature] at hrecord'
    cases hrecord'
    obtain ⟨q, hq, hasked⟩ := hunforged _ hsent _ hseal.verifies
    obtain ⟨content, device, option, input, hsigns⟩ := Client.signsAnswer_of_asked q.config hasked
    have hrequest : r.id = id := id_of_readRequest P hread
    let card : StoredCard P := ⟨more, r, by rw [hrequest, ← hstored]; exact hread⟩
    have hreviewed := reviewed_of_signsAnswer hsigns
    obtain ⟨hcopies, hnotes⟩ := htells q hq
    have hconsents := @consents_of_signsAnswer P card decision row record key q content device option input
      hsigns (hof q hq) hdevice hkeyed hseal (hcopies id r content hread hreviewed) (hnotes id decision hmem)
    refine ⟨q, ?_, hq, content, r, record, hread, hseal.signature, hconsents⟩
    have hrecordKey : some keyId = some record.keyId := hkeyId.symm.trans hseal.keyId
    unfold nonceOf
    rw [hseal.signature, hactor, Option.some.inj hrecordKey, ← hconsents.nonce]
    rfl
  choose sessionOf hnonces hsessions using hone
  refine ⟨sessionOf, ?_, hsessions⟩
  intro x y hsame
  -- one session has one nonce, and a nonce is accepted once
  have hnonce : nonceOf x.val.2 = nonceOf y.val.2 := by
    rw [hnonces x, hnonces y, hsame]
  obtain ⟨hid, hdecision⟩ := (noncesSpent_serve calls).once _ _ _ _ x.property.1 y.property.1 hnonce
  exact Subtype.ext (Prod.ext hid hdecision)

end Nod.Server
