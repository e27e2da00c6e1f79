import Nod.Client.Signing
import Nod.Proto.Receipt
import Nod.Server.CreateCall
import Nod.Server.Evidence

/-
  A decision that the service has accepted, checked again by whoever created the request
  (`nod-proto/src/receipt.rs`): from the answer of the create call, the stored decision and a pin of
  the device's key alone.
  Proved: `receipts_verify`. After any run of the service, every stored decision verifies against
  what any create call of the run has answered for its request, whichever of the two came first.
  And `decisions_verify`, the same for one submission that is accepted after the create.
-/

namespace Nod.Server

open Lib Nod.Proto
open Client (trimmedNotes_trimmedNotes)

variable {P : Packages}

/-! ## What an accepted decision carries -/

variable (P) in
/-- A decision as it was accepted: signed over its own fields by a key of its device, with a digest
    its request can have been issued under. -/
structure Sealed (request : DecisionRequest) (decision : Decision) (device : Device)
    (record : DecisionSignatureRecord) (key : String) : Prop where
  signature : decision.signature = some record
  algorithm : record.algorithm = decisionSigningAlgorithm
  requestId : decision.requestId = request.id
  actorUser : decision.actorUserId = some device.userId
  actorDevice : decision.actorDeviceId = some device.id
  keyId : device.signingKeyId = some record.keyId
  publicKey : device.signingPublicKey = some key
  digest : ∃ candidates, digestCandidates P request = .ok candidates ∧
    record.requestDigest ∈ candidates
  option : ∃ option, chooseOption request decision.optionId = .ok option ∧
    option.kind = decision.optionKind
  recipient : device.userId ∈ request.recipients
  answer : AnswerStands request decision
  text : trimmedNotes decision.text = decision.text
  nonce : record.nonce.utf8ByteSize ≤ 160
  rebuilt : ∃ t, DateTime.parseFromRfc3339 record.signedAt = some t ∧
    rebuildPayload P.toExternals (request.toWire P.toExternals) decision record
      { requestId := decision.requestId, requestDigest := record.requestDigest
        optionId := decision.optionId, optionKind := decision.optionKind, userId := device.userId
        deviceId := device.id, keyId := record.keyId, nonce := record.nonce
        signedAt := t.toRfc3339Millis, text := decision.text } = .ok record.signingPayload
  verifies : verifyPayload P.toExternals key record.signingPayload record.signature = .ok ()

/-- The chosen option has the id that was asked for, so it is chosen again by its own id. -/
theorem id_of_chooseOption {request : DecisionRequest} {optionId : String} {option : RequestOption}
    (h : chooseOption request optionId = .ok option) : option.id = optionId := by
  rw [chooseOption, orElse_eq_ok, Option.or_eq_some_iff] at h
  obtain hfound | ⟨-, hdismiss⟩ := h
  · have hfound := List.find?_some hfound
    exact of_decide_eq_true hfound
  · unfold implicitDismissOption at hdismiss
    split at hdismiss
    · cases hdismiss
    · rename_i hcard
      simp only [not_or, not_not] at hcard
      cases hdismiss
      exact hcard.2.1.symm

/-- What was verified when the decision came in is rebuilt from what is kept with it. -/
theorem rebuilt_of_valid {request : DecisionRequest} {option : RequestOption} {actor : Device}
    {requestId optionId : String} {decision : SubmitDecisionRequest} {provided : DecisionSignature}
    {payload : String} {at_ : DateTime} (hid : request.id = requestId)
    (h : SignatureValid P request option actor (trimmedNotes decision.text) provided
      decision.answerValue payload) :
    ∃ t, DateTime.parseFromRfc3339 provided.signedAt = some t ∧
      rebuildPayload P.toExternals (request.toWire P.toExternals)
        (decisionOf (submissionOf actor requestId optionId decision) option
          (some (signatureRecord actor provided provided.requestDigest payload)) at_)
        (signatureRecord actor provided provided.requestDigest payload)
        { requestId, requestDigest := provided.requestDigest, optionId := option.id
          optionKind := option.kind, userId := actor.userId, deviceId := actor.id
          keyId := provided.keyId, nonce := provided.nonce, signedAt := t.toRfc3339Millis
          text := trimmedNotes decision.text } = .ok payload := by
  obtain ⟨t, ht, hpayload⟩ := h.signedAt
  refine ⟨t, ht, ?_⟩
  unfold rebuildPayload signatureRecord decisionOf submissionOf
  unfold expectedPayload signingInput at hpayload
  dsimp only at hpayload ⊢
  rw [hid] at hpayload
  cases hfield : request.answerField with
  | some field =>
    rw [hfield] at hpayload
    simp only [bind_eq_ok, refuseIf_eq_ok, orElse_eq_ok, not_or, not_not, digestError,
      mapError_eq_ok] at hpayload
    obtain ⟨_, ⟨hversion, -⟩, answer, hanswer, _, -, hsigned⟩ := hpayload
    rw [hversion, hanswer]
    dsimp only
    rw [if_pos rfl, bind_eq_ok]
    exact ⟨answer, rfl, mapError_eq_ok.mpr hsigned⟩
  | none =>
    rw [hfield] at hpayload
    simp only [bind_eq_ok, refuseIf_eq_ok, not_or, not_not, pure_eq_ok] at hpayload
    obtain ⟨_, ⟨hanswer, hversion⟩, hsigned⟩ := hpayload
    rw [hversion, hanswer]
    dsimp only
    rw [answerField_toWire, hfield, refuseIf_neg (by simp)]
    exact congrArg Except.ok hsigned

/-- An accepted submission of a device is sealed. -/
theorem sealed_of_recorded {env : Env} {s : Db} {actor : Device} {requestId optionId : String}
    {decision : SubmitDecisionRequest} {request : DecisionRequest} {option : RequestOption}
    {signature : Option DecisionSignatureRecord} {signed : Db}
    (hchecked : Checked P env (submissionOf actor requestId optionId decision) s request option)
    (hsigned : Signed P env (submissionOf actor requestId optionId decision) request option s
      signature signed) :
    ∃ record key, Sealed P request (decisionOf (submissionOf actor requestId optionId decision)
      option signature (env.now 1)) actor record key := by
  have hid : request.id = requestId := id_of_readRequest P hchecked.read
  cases hsigned with
  | internal hnone _ => cases hnone
  | device actor' provided payload nonces hactor hprovided _ _ hvalid _ _ =>
    cases hactor
    obtain ⟨key, hkey, hverifies⟩ := hvalid.publicKey
    have hoption : option.id = optionId := id_of_chooseOption hchecked.option
    refine ⟨_, key, rfl, hvalid.algorithm, hid.symm, rfl, rfl, hvalid.keyId, hkey, hvalid.digest,
      ⟨option, ?_, rfl⟩, hchecked.recipient _ rfl, answerStands_of_policy hchecked.policy,
      trimmedNotes_trimmedNotes _, hvalid.nonce.2, rebuilt_of_valid hid hvalid, hverifies⟩
    exact (congrArg (chooseOption request) hoption).trans hchecked.option

/-- What a seal is about is fixed by the create of the request. -/
theorem Sealed.issued {r r' : DecisionRequest} {decision : Decision} {device : Device}
    {signature : DecisionSignatureRecord} {key : String} (h : Sealed P r decision device signature key)
    (hsame : r'.issued = r.issued) : Sealed P r' decision device signature key := by
  have hid : r'.id = r.id := by
    have hid := congrArg DecisionRequest.id hsame
    exact hid
  have hoptions : r'.options = r.options := by
    have hoptions := congrArg DecisionRequest.options hsame
    exact hoptions
  have hfield : r'.answerField = r.answerField := by
    have hanswerField := congrArg DecisionRequest.answerField hsame
    exact hanswerField
  have hrecipients : r'.recipients = r.recipients := by
    have hrecipients := congrArg DecisionRequest.recipients hsame
    exact hrecipients
  have hdigests : digestCandidates P r' = digestCandidates P r := by
    rw [← digestCandidates_issued r', ← digestCandidates_issued r, hsame]
  have hchoose : ∀ optionId, chooseOption r' optionId = chooseOption r optionId := by
    intro optionId
    unfold chooseOption implicitDismissOption
    rw [hoptions, hfield]
  refine ⟨h.signature, h.algorithm, hid ▸ h.requestId, h.actorUser, h.actorDevice, h.keyId,
    h.publicKey, hdigests ▸ h.digest, ?_, hrecipients ▸ h.recipient, ?_, h.text, h.nonce, ?_, h.verifies⟩
  · rw [hchoose]
    exact h.option
  · unfold AnswerStands
    rw [hfield]
    exact h.answer
  · unfold rebuildPayload
    rw [answerField_toWire, hfield, ← answerField_toWire (P := P) r]
    exact h.rebuilt

/-! ## The digest of a card as it was answered -/

/-- A stored request is answered with a signing context of a known version. -/
theorem signing_of_read {s : Db} {id : String} {r : DecisionRequest}
    (h : readRequest P s id = .ok r) : ∃ version commitment digest,
      r.signing = some ⟨version, commitment, digest⟩ ∧ validCommitment commitment = true ∧
        version ∈ knownVersions := by
  obtain ⟨row, version, digest, -, hreads⟩ := (readRequest_eq_ok P).mp h
  refine ⟨version, recipientsCommitment P.toExternals (s.relatedOf id).recipients row.recipientSalt,
    digest, ?_, validCommitment_sha256Hex P.toExternals _, ?_⟩
  · rw [hreads.request]
  · have hissued := hreads.issued
    unfold issuedDigest at hissued
    split at hissued
    · obtain ⟨d, -, hpair⟩ := map_eq_ok.mp hissued
      cases hpair
      decide
    · obtain ⟨d, -, hpair⟩ := map_eq_ok.mp hissued
      cases hpair
      decide

theorem signing_toWire (r : DecisionRequest) : (r.toWire P.toExternals).signing = r.signing := by
  unfold DecisionRequest.toWire
  split <;> rfl

/-- The digest an ordinary card is stamped with is its line snapshot. -/
theorem stamped_toWire (r : DecisionRequest) :
    (r.toWire P.toExternals).requestDigest.getD
      (requestDigestLegacyLineSnapshot P.toExternals (r.toWire P.toExternals)) =
        requestDigestLegacyLineSnapshot P.toExternals (r.toWire P.toExternals) := by
  unfold DecisionRequest.toWire
  split <;> rfl

/-- Every digest the server accepts for a card is found again by the receipt verifier. -/
theorem matchRequestDigest_of_candidates {r : DecisionRequest} {version commitment digest : String}
    (hsigning : r.signing = some ⟨version, commitment, digest⟩)
    (hcommitment : validCommitment commitment = true) (hversion : version ∈ knownVersions)
    {candidates : List String} (h : digestCandidates P r = .ok candidates) {found : String}
    (hmem : found ∈ candidates) : ∃ encoder,
      matchRequestDigest P.toExternals (r.toWire P.toExternals) found = .ok (found, encoder) := by
  have hwire : (r.toWire P.toExternals).signing = some ⟨version, commitment, digest⟩ :=
    (signing_toWire r).trans hsigning
  have hcheck : checkVersion (r.toWire P.toExternals) = .ok () := by
    unfold checkVersion
    rw [hwire]
    exact refuseIf_neg (not_not.mpr hversion) _
  unfold digestCandidates at h
  dsimp only at h
  rw [hwire, Option.map_some] at h
  cases hfield : r.answerField with
  | some field =>
    have hwireField : (r.toWire P.toExternals).answerField = some field :=
      (answerField_toWire r).trans hfield
    rw [hfield] at h
    simp only [bind_eq_ok, orElse_eq_ok, digestError, mapError_eq_ok, pure_eq_ok,
      Option.some.injEq, exists_eq_left'] at h
    obtain ⟨current, hcurrent, legacy, hlegacy, rfl⟩ := h
    obtain ⟨-, hvalid, hcurrent⟩ := valueRequestDigestWithVersion_eq_ok.mp hcurrent
    obtain ⟨-, -, hlegacy⟩ := valueRequestDigestWithVersion_eq_ok.mp hlegacy
    refine matchRequestDigest_of_mem hcheck
      (receiptCandidates_value hwireField hwire hcommitment hvalid) ?_
    rw [List.map_cons, List.map_cons, List.map_nil, hcurrent, hlegacy]
    exact hmem
  | none =>
    have hwireField : (r.toWire P.toExternals).answerField = none :=
      (answerField_toWire r).trans hfield
    rw [hfield] at h
    simp only [bind_eq_ok, digestError, mapError_eq_ok, pure_eq_ok, stamped_toWire] at h
    obtain ⟨current, hcurrent, legacy, hlegacy, rfl⟩ := h
    obtain ⟨-, hcurrent⟩ := structuredRequestDigest_eq_ok.mp hcurrent
    obtain ⟨-, hlegacy⟩ := structuredRequestDigest_eq_ok.mp hlegacy
    refine matchRequestDigest_of_mem hcheck
      (receiptCandidates_ordinary hwireField hwire hcommitment) ?_
    rw [List.map_cons, List.map_cons, List.map_cons, List.map_nil, hcurrent, hlegacy]
    simp only [List.mem_cons, List.not_mem_nil, or_false] at hmem ⊢
    obtain hsame | hsame | hsame := hmem
    · exact Or.inr (Or.inr hsame)
    · exact Or.inl hsame
    · exact Or.inr (Or.inl hsame)

/-- The verifier resolves an option as the server chose it. -/
theorem resolveOption_toWire {r : DecisionRequest} {optionId : String} {option : RequestOption}
    (h : chooseOption r optionId = .ok option) :
    resolveOption (r.toWire P.toExternals) optionId = .ok option := by
  have hoptions : (r.toWire P.toExternals).options = r.options := by
    unfold DecisionRequest.toWire
    split <;> rfl
  rw [chooseOption, orElse_eq_ok, Option.or_eq_some_iff] at h
  unfold resolveOption
  rw [hoptions, answerField_toWire]
  obtain hfound | ⟨hnone, hdismiss⟩ := h
  · rw [hfound]
  · rw [hnone]
    unfold implicitDismissOption at hdismiss
    split at hdismiss
    · cases hdismiss
    · rename_i hcard
      simp only [not_or, not_not] at hcard
      cases hdismiss
      dsimp only
      rw [if_pos ⟨hcard.2.2, hcard.1, hcard.2.1⟩]

/-! ## The verdict -/

/-- A key is pinned, and no other pin has its user and key id. -/
def PinnedAlone (pins : List PinnedKey) (pin : PinnedKey) : Prop :=
  pin ∈ pins ∧ ∀ other ∈ pins, other.userId = pin.userId → other.keyId = pin.keyId → other = pin

/-- A sealed decision verifies against its request as a create call answers it. -/
theorem verified_of_sealed {r : DecisionRequest} {decision : Decision} {device : Device}
    {signature : DecisionSignatureRecord} {key : String}
    (h : Sealed P r decision device signature key) {version commitment digest : String}
    (hsigning : r.signing = some ⟨version, commitment, digest⟩)
    (hcommitment : validCommitment commitment = true) (hversion : version ∈ knownVersions)
    {pins : List PinnedKey}
    (hpin : PinnedAlone pins ⟨device.userId, some device.id, signature.keyId, key⟩) (now : DateTime)
    (skew : Option Int) : ∃ verdict, verifyDecisionReceipt P.toExternals
      ⟨r.toWire P.toExternals, decision, pins, now, skew, false⟩ = .ok verdict ∧
        verdict.requestId = r.id ∧ verdict.userId = device.userId ∧ verdict.deviceId = device.id ∧
        verdict.keyId = signature.keyId ∧ verdict.optionId = decision.optionId ∧
        verdict.requestDigest = signature.requestDigest := by
  obtain ⟨candidates, hcandidates, hmem⟩ := h.digest
  obtain ⟨encoder, hmatch⟩ :=
    matchRequestDigest_of_candidates hsigning hcommitment hversion hcandidates hmem
  obtain ⟨option, hoption, hkind⟩ := h.option
  obtain ⟨t, ht, hrebuilt⟩ := h.rebuilt
  obtain ⟨warnings, hwarnings⟩ := @timeWarnings_of_not_strict
    ⟨r.toWire P.toExternals, decision, pins, now, skew, false⟩ t rfl
  have hids : (r.toWire P.toExternals).id = r.id ∧ (r.toWire P.toExternals).requestId = r.id := by
    unfold DecisionRequest.toWire
    split <;> exact ⟨rfl, rfl⟩
  have hfind : pins.find? (fun pin => decide (pin.userId = device.userId ∧
      pin.keyId = signature.keyId)) = some ⟨device.userId, some device.id, signature.keyId, key⟩ := by
    have hsome : (pins.find? fun pin => decide (pin.userId = device.userId ∧
        pin.keyId = signature.keyId)).isSome = true := by
      rw [List.find?_isSome]
      exact ⟨_, hpin.1, decide_eq_true ⟨rfl, rfl⟩⟩
    obtain ⟨pin, hfound⟩ := Option.isSome_iff_exists.mp hsome
    have hnamed := List.find?_some hfound
    obtain ⟨huser, hkey⟩ := of_decide_eq_true hnamed
    rw [hfound, hpin.2 pin (List.mem_of_find?_eq_some hfound) huser hkey]
  refine ⟨_, verifyDecisionReceipt_eq_ok.mpr ⟨signature, device.userId, device.id, _, t,
    (signature.requestDigest, encoder), signature.signingPayload, warnings,
    ⟨h.signature, h.algorithm, h.requestId.trans hids.1.symm, Or.inr (hids.2.trans hids.1.symm),
      hmatch, ⟨option, resolveOption_toWire hoption, hkind⟩, h.actorUser, h.actorDevice, hfind,
      Or.inr rfl, ht, hrebuilt, rfl, h.verifies⟩, hwarnings, rfl⟩, h.requestId, rfl, rfl, rfl, rfl, rfl⟩

/-! ## Every run -/

/-- What a state holds of a stored decision: its device, revoked since or not, and the seal. -/
def SealedIn (P : Packages) (s : Db) (id : String) (decision : Decision) : Prop :=
  ∃ row request record key, s.devices.get? row.id = some row ∧ readRequest P s id = .ok request ∧
    Sealed P request decision row.toDevice record key

/-- A decision that a call of the service adds is that of a submission it accepts. -/
structure AcceptedBy (P : Packages) (s : Service) (c : ServiceCall) (id : String) (decision : Decision)
    (env : Env) (actor : Device) (optionId : String) (submitted : SubmitDecisionRequest)
    (request : DecisionRequest) (option : RequestOption) (signature : Option DecisionSignatureRecord)
    (signed : Db) : Prop where
  call : ∃ faults, s.callOf c =
    some ⟨.recordDecision env (submissionOf actor id optionId submitted), faults⟩
  enrolled : ∃ row, s.db.devices.get? actor.id = some row ∧ row.toDevice = actor
  checked : Checked P env (submissionOf actor id optionId submitted) s.db request option
  signed : Signed P env (submissionOf actor id optionId submitted) request option s.db signature signed
  decision : decision = decisionOf (submissionOf actor id optionId submitted) option signature (env.now 1)

theorem acceptedBy_of_new {s : Service} (h : s.Inv P) (c : ServiceCall) {id : String}
    {decision : Decision} (hnew : decision ∈ (s.step P c).db.storedDecisions id)
    (hold : decision ∉ s.db.storedDecisions id) :
    ∃ env actor optionId submitted request option signature signed,
      AcceptedBy P s c id decision env actor optionId submitted request option signature signed := by
  unfold Service.step at hnew
  cases hcall : s.callOf c with
  | none =>
    rw [hcall] at hnew
    exact absurd hnew hold
  | some call =>
    rw [hcall] at hnew
    obtain ⟨env, submission, request, option, signature, signed, hop, hid, hchecked, hsigned,
      hdecision⟩ := recorded_of_new h.wellFormed hnew hold
    cases c with
    | requireDevice token => cases hcall
    | other call' hother =>
      cases hcall
      rw [hop] at hother
      cases hother
    | decide number env' requestId optionId submitted faults =>
      obtain ⟨actor, hactor, rfl⟩ := Option.map_eq_some_iff.mp hcall
      cases hop
      cases hid
      exact ⟨env, actor, optionId, submitted, request, option, signature, signed, ⟨faults, hcall⟩,
        h.devices actor (List.mem_of_getElem? hactor), hchecked, hsigned, hdecision⟩

theorem sealedIn_step {s : Service} (h : s.Inv P) (c : ServiceCall) {id : String}
    {decision : Decision} (hmem : decision ∈ (s.step P c).db.storedDecisions id)
    (hold : decision ∈ s.db.storedDecisions id → SealedIn P s.db id decision) :
    SealedIn P (s.step P c).db id decision := by
  have h' := h.step c
  obtain ⟨row', hrow'⟩ := stored_of_mem_storedDecisions h'.wellFormed hmem
  obtain ⟨request', hread'⟩ := h'.legible.reads id row' hrow'
  -- a seal on the state before is one on the state after
  have hkeep : SealedIn P s.db id decision → SealedIn P (s.step P c).db id decision := by
    intro hsealed
    obtain ⟨row, request, record, key, hdevice, hread, hseal⟩ := hsealed
    obtain ⟨d, hd, hsame⟩ := devicesKept_step s c row.id row hdevice
    have hid : d.id = row.id := Table.key_of_get? hd
    refine ⟨d, request', record, key, hid.symm ▸ hd, hread', ?_⟩
    rw [hsame]
    exact hseal.issued (issued_run h.wellFormed _ hread hread')
  by_cases hbefore : decision ∈ s.db.storedDecisions id
  · exact hkeep (hold hbefore)
  · obtain ⟨env, actor, optionId, submitted, request, option, signature, signed, haccepted⟩ :=
      acceptedBy_of_new h c hmem hbefore
    obtain ⟨row, hrow, hdevice⟩ := haccepted.enrolled
    have hrowId : row.id = actor.id := Table.key_of_get? hrow
    obtain ⟨record, key, hseal⟩ := sealed_of_recorded haccepted.checked haccepted.signed
    rw [← haccepted.decision, ← hdevice] at hseal
    exact hkeep ⟨row, request, record, key, hrowId.symm ▸ hrow, haccepted.checked.read, hseal⟩

theorem sealedIn_serve (calls : List ServiceCall) {id : String} {decision : Decision}
    (hmem : decision ∈ (serve P calls).db.storedDecisions id) :
    SealedIn P (serve P calls).db id decision := by
  induction calls using List.reverseRecOn with
  | nil => cases hmem
  | append_singleton calls c ih =>
    rw [serve_concat] at hmem ⊢
    exact sealedIn_step (inv_serve calls) c hmem ih

/-- A longer run of the service goes on from a shorter one by calls of the database. -/
theorem serve_append (earlier later : List ServiceCall) :
    ∃ calls, (serve P (earlier ++ later)).db = run P calls (serve P earlier).db := by
  induction later using List.reverseRecOn with
  | nil =>
    rw [List.append_nil]
    exact ⟨[], rfl⟩
  | append_singleton later c ih =>
    obtain ⟨calls, hcalls⟩ := ih
    refine ⟨calls ++ ((serve P (earlier ++ later)).callOf c).toList, ?_⟩
    rw [← List.append_assoc, serve_concat, run_append, ← hcalls]
    rfl

/-- The create of a request. -/
def ServiceCall.create (env : Env) (req : CreateDecisionRequest) (metadata : CreateRequestMetadata)
    (faults : List Bool) : ServiceCall :=
  .other ⟨.createRequest env req metadata, faults⟩ rfl

variable (P) in
/-- Decisions of a run, against what the create calls of the run have answered. -/
def ReceiptsVerify (calls : List ServiceCall) : Prop :=
  ∀ id decision, decision ∈ (serve P calls).db.storedDecisions id →
    ∃ row record key, (serve P calls).db.devices.get? row.id = some row ∧
      decision.signature = some record ∧ row.signingKeyId = some record.keyId ∧
      row.signingPublicKey = some key ∧
      ∀ earlier later env req metadata faults created,
        calls = earlier ++ .create env req metadata faults :: later →
        (Prog.exec databaseError (createRequest P env req metadata) faults
          (serve P earlier).db).1 = .ok created →
        created.requestId = id →
        ∀ pins now skew, PinnedAlone pins ⟨row.userId, some row.id, record.keyId, key⟩ →
          ∃ verdict, verifyDecisionReceipt P.toExternals
            ⟨created.request.toWire P.toExternals, decision, pins, now, skew, false⟩ = .ok verdict ∧
              verdict.requestId = id ∧ verdict.userId = row.userId ∧ verdict.deviceId = row.id ∧
              verdict.keyId = record.keyId ∧ verdict.optionId = decision.optionId ∧
              verdict.requestDigest = record.requestDigest

/-- A create call answers with the request as it can be read right after it. -/
theorem read_of_create {env : Env} {req : CreateDecisionRequest} {metadata : CreateRequestMetadata}
    {faults : List Bool} {s s' : Db} {created : CreatedDecisionRequest}
    (h : Prog.exec databaseError (createRequest P env req metadata) faults s = (.ok created, s')) :
    readRequest P s' created.requestId = .ok created.request := by
  obtain hjoined | ⟨-, hid, recipients, node, hcreated⟩ :=
    created_of_eval P (Prog.exec_ok (transactional_createRequest P env req metadata) h)
  · obtain ⟨id, hread⟩ := hjoined.read
    rw [hjoined.requestId, id_of_readRequest P hread]
    obtain ⟨idempotency, rfl⟩ := hjoined.rest
    exact hread
  · rw [hid]
    exact hcreated.read

section

variable {earlier later : List ServiceCall} {env : Env} {req : CreateDecisionRequest}
  {metadata : CreateRequestMetadata} {faults : List Bool} {created : CreatedDecisionRequest}

/-- A seal on the request as it can be read later is one on what the create was answered. -/
theorem verified_of_create {request : DecisionRequest} {decision : Decision} {device : Device}
    {record : DecisionSignatureRecord} {key : String}
    (hcreate : (Prog.exec databaseError (createRequest P env req metadata) faults
      (serve P earlier).db).1 = .ok created)
    (hread : readRequest P (serve P (earlier ++ .create env req metadata faults :: later)).db
      created.requestId = .ok request)
    (hseal : Sealed P request decision device record key) {pins : List PinnedKey}
    (hpin : PinnedAlone pins ⟨device.userId, some device.id, record.keyId, key⟩) (now : DateTime)
    (skew : Option Int) : ∃ verdict, verifyDecisionReceipt P.toExternals
      ⟨created.request.toWire P.toExternals, decision, pins, now, skew, false⟩ = .ok verdict ∧
        verdict.requestId = created.requestId ∧ verdict.userId = device.userId ∧
        verdict.deviceId = device.id ∧ verdict.keyId = record.keyId ∧
        verdict.optionId = decision.optionId ∧ verdict.requestDigest = record.requestDigest := by
  have hexec : Prog.exec databaseError (createRequest P env req metadata) faults
      (serve P earlier).db = (.ok created, (serve P (earlier ++ [.create env req metadata faults])).db) := by
    rw [serve_concat]
    exact Prod.ext hcreate rfl
  have hanswer := read_of_create hexec
  obtain ⟨more, hmore⟩ := serve_append (P := P) (earlier ++ [.create env req metadata faults]) later
  rw [List.append_assoc, List.singleton_append] at hmore
  rw [hmore] at hread
  have hsame := issued_run (inv_serve _).wellFormed more hanswer hread
  obtain ⟨version, commitment, digest, hsigning, hcommitment, hversion⟩ := signing_of_read hanswer
  obtain ⟨verdict, hverdict, hrequest, hrest⟩ := verified_of_sealed (hseal.issued hsame.symm)
    hsigning hcommitment hversion hpin now skew
  exact ⟨verdict, hverdict, hrequest.trans (id_of_readRequest P hanswer), hrest⟩

end

/-- Every decision that the service has stored passes the verifier on what the create of its request
    was answered. -/
theorem receipts_verify (calls : List ServiceCall) : ReceiptsVerify P calls := by
  intro id decision hmem
  obtain ⟨row, request, record, key, hdevice, hread, hseal⟩ := sealedIn_serve calls hmem
  refine ⟨row, record, key, hdevice, hseal.signature, hseal.keyId, hseal.publicKey, ?_⟩
  rintro earlier later env req metadata faults created rfl hcreate rfl pins now skew hpin
  exact verified_of_create hcreate hread hseal hpin now skew

/-! ## The submission that was accepted -/

/-- The decision of an accepted submission is stored. -/
theorem stored_of_eval {env : Env} {submission : DecisionSubmission} {s s' : Db}
    {resolved : DecisionRequest}
    (h : Prog.eval databaseError (recordDecision P env submission) s = .ok (resolved, s')) :
    ∃ request option signature signed, Checked P env submission s request option ∧
      Signed P env submission request option s signature signed ∧
      decisionOf submission option signature (env.now 1) ∈ s'.storedDecisions submission.requestId := by
  obtain ⟨request, option, signature, signed, stored, row', node, hchecked, hsigned, hstored, hread,
    happended⟩ := recorded_of_eval P h
  obtain ⟨row, version, digest, hrow, hreads⟩ := (readRequest_eq_ok P).mp hchecked.read
  have hsignedRow : signed.requests.get? submission.requestId = some row := by
    rw [hsigned.rest]
    exact hrow
  have hmem := hstored.mem_storedDecisions hsignedRow (hreads.status ▸ hchecked.pending)
  have hid : resolved.id = submission.requestId := id_of_readRequest P hread
  rw [← hid, ← happended.storedDecisions, hid] at hmem
  exact ⟨request, option, signature, signed, hchecked, hsigned, hmem⟩

variable (P) in
/-- A decision passes the verifier on a card, where the device's key is pinned. -/
def VerifiesOn (card : Request) (device : Device) (decision : Decision) : Prop :=
  ∃ record key, decision.signature = some record ∧ device.signingKeyId = some record.keyId ∧
    device.signingPublicKey = some key ∧
    ∀ pins now skew, PinnedAlone pins ⟨device.userId, some device.id, record.keyId, key⟩ →
      ∃ verdict, verifyDecisionReceipt P.toExternals ⟨card, decision, pins, now, skew, false⟩ =
          .ok verdict ∧
        verdict.requestId = decision.requestId ∧ verdict.userId = device.userId ∧
        verdict.deviceId = device.id ∧ verdict.keyId = record.keyId ∧
        verdict.optionId = decision.optionId ∧ verdict.requestDigest = record.requestDigest

variable (P) in
/-- What a device submits for a request and the server accepts is stored, and verifies on what the
    create of the request was answered. -/
def DecisionsVerify : Prop :=
  ∀ (earlier later : List ServiceCall) env req metadata faults created,
    (Prog.exec databaseError (createRequest P env req metadata) faults (serve P earlier).db).1 =
      .ok created →
    ∀ device env' optionId submitted faults' resolved s',
      Prog.exec databaseError (recordDecision P env'
          (submissionOf device created.requestId optionId submitted)) faults'
        (serve P (earlier ++ .create env req metadata faults :: later)).db = (.ok resolved, s') →
      ∃ decision ∈ s'.storedDecisions created.requestId, decision.optionId = optionId ∧
        decision.answerValue = submitted.answerValue ∧ decision.actorUserId = some device.userId ∧
        decision.actorDeviceId = some device.id ∧
        VerifiesOn P (created.request.toWire P.toExternals) device decision

theorem decisions_verify (P : Packages) : DecisionsVerify P := by
  intro earlier later env req metadata faults created hcreate device env' optionId submitted faults'
    resolved s' hexec
  obtain ⟨request, option, signature, signed, hchecked, hsigned, hmem⟩ :=
    stored_of_eval (Prog.exec_ok (transactional_recordDecision P env' _) hexec)
  obtain ⟨record, key, hseal⟩ := sealed_of_recorded hchecked hsigned
  refine ⟨_, hmem, id_of_chooseOption hchecked.option, rfl, rfl, rfl, record, key, hseal.signature,
    hseal.keyId, hseal.publicKey, ?_⟩
  intro pins now skew hpin
  exact verified_of_create hcreate hchecked.read hseal hpin now skew

end Nod.Server
