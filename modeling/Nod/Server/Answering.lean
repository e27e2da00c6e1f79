import Nod.Server.Evidence
import Nod.Server.References

/-
  When a submission is accepted: its checks pass, its signature is good, neither its nonce nor its
  answer is taken, and the ids and times of the call are new and can be written.
  Proved: `exists_recorded`, such a submission is accepted by a store that works.
-/

namespace Nod.Server

open Lib Nod.Proto

variable {P : Packages}

/-! ## What an answered request reads back as -/

/-- A stored answer writes one time, as the last change and perhaps as the resolution. -/
theorem Stored.times {id at_ : String} {actorUserId : Option String} {decision : Decision}
    {s s' : Db} {resolution : DecisionResolution} {row row' : RequestRow}
    (h : Stored id actorUserId decision at_ s resolution s')
    (hrow : s.requests.get? id = some row) (hpending : row.status = .pending)
    (hrow' : s'.requests.get? id = some row') :
    row'.updatedAt = at_ ∧ row'.revision = row.revision ∧
      (row'.resolvedAt = some at_ ∨ row'.resolvedAt = row.resolvedAt) := by
  have hp := isPendingRow_of hrow hpending
  cases h with
  | shared _ =>
    have hanswered := row_of_update (fun _ => by rfl) hrow hp hrow'
    rw [hanswered]
    exact ⟨rfl, rfl, Or.inl rfl⟩
  | user userId userDecisions _ _ _ _ =>
    unfold userAnswered at hrow'
    dsimp only at hrow'
    split at hrow'
    · have hlast := row_of_update (fun _ => by rfl) hrow hp hrow'
      rw [hlast]
      exact ⟨rfl, rfl, Or.inl rfl⟩
    · have hself := decide_eq_true (Table.key_of_get? hrow)
      have hopen := row_of_update (fun _ => by rfl) hrow hself hrow'
      rw [hopen]
      exact ⟨rfl, rfl, Or.inr rfl⟩

/-- A request reads back once its answer has been stored. -/
theorem exists_read_of_stored {id : String} {actorUserId : Option String} {decision : Decision}
    {s s' : Db} {resolution : DecisionResolution} {r : DecisionRequest} {t : DateTime}
    (h : Stored id actorUserId decision t.toRfc3339Millis s resolution s')
    (hread : readRequest P s id = .ok r) (hpending : r.status = .pending) (ht : t.FourDigitYear) :
    ∃ r', readRequest P s' id = .ok r' := by
  obtain ⟨row, version, digest, hrow, hreads⟩ := (readRequest_eq_ok P).mp hread
  obtain ⟨row', hrow', hfrozen⟩ := h.row hrow
  obtain ⟨hupdated, -, hresolved⟩ := h.times hrow (hreads.status ▸ hpending) hrow'
  have hparse := DateTime.parse_toRfc3339Millis t ht
  have hcontent : SameContent row row' (s.relatedOf id) (s'.relatedOf id) := by
    refine ⟨hfrozen, ?_, ?_⟩
    · rw [recipients_relatedOf, recipients_relatedOf, h.rest]
      rfl
    · rw [options_relatedOf, options_relatedOf, h.rest]
      rfl
  have htimes : ∃ resolvedAt : Option DateTime,
      row'.resolvedAt.map DateTime.parseFromRfc3339 = resolvedAt.map some := by
    rcases hresolved with hnew | hold
    · refine ⟨some t.truncMillis, ?_⟩
      rw [hnew, Option.map_some, hparse, Option.map_some]
    · exact ⟨r.resolvedAt, by rw [hold, hreads.resolvedAt]⟩
  obtain ⟨resolvedAt, htimes⟩ := htimes
  have hlast : DateTime.parseFromRfc3339 row'.updatedAt = some t.truncMillis := by
    rw [hupdated, hparse]
  obtain ⟨r', hreads'⟩ := reads_of_sameContent hreads hcontent hlast htimes
  exact ⟨r', (readRequest_eq_ok P).mpr ⟨row', version, digest, hrow', hreads'⟩⟩

/-! ## Accepting a submission -/

/-- The id of the call's event is new, and its times can be written. -/
structure Ready (env : Env) (s : Db) : Prop where
  event : s.events.get? (env.newId 0) = none
  resolved : (env.now 1).FourDigitYear

/-- A signed submission that is good but for its nonce. -/
structure WellSigned (P : Packages) (submission : DecisionSubmission) (request : DecisionRequest)
    (option : RequestOption) (s : Db) (actor : Device) (provided : DecisionSignature)
    (payload : String) : Prop where
  actorDevice : submission.actorDevice = some actor
  signature : submission.decision.signature = some provided
  publicKey : hasText actor.signingPublicKey = true
  keyId : hasText actor.signingKeyId = true
  valid : SignatureValid P request option actor (trimmedNotes submission.decision.text) provided
    submission.decision.answerValue payload
  enrolled : s.devices.get? actor.id ≠ none

/-- The journal of a stored request has no event of its next revision. -/
theorem unused_revision {s : Db} (hs : WellFormed P s) {id : String} {row : RequestRow}
    (hrow : s.requests.get? id = some row) :
    ∀ e ∈ s.events.rows, e.requestId = id → e.revision ≠ row.revision + 1 := by
  intro e he hid hrevision
  obtain ⟨hgood, hentries⟩ := hs.good hrow
  have hjournal : JournalOf s id row.revision := journalOf_of_numbered hs.toTables hgood hentries
  have hmem : e.revision ∈ (s.eventsOf id).map EventRow.revision :=
    List.mem_map_of_mem (List.mem_filter.mpr ⟨he, decide_eq_true hid⟩)
  rw [hjournal.revisions, List.mem_range'_1] at hmem
  omega

theorem unused_delivery {s : Db} (hs : WellFormed P s) {eventId : String}
    (hevent : s.events.get? eventId = none) :
    ∀ c ∈ s.callbacks.rows, c.eventId ≠ eventId ∧ c.deliveryId ≠ eventId ++ ":callback" := by
  intro c hc
  obtain ⟨hknown, hdelivery⟩ := hs.callbacks c hc
  have hne : c.eventId ≠ eventId := by
    intro heq
    rw [heq] at hknown
    exact hknown hevent
  refine ⟨hne, fun heq => hne ?_⟩
  rw [hdelivery] at heq
  exact String.append_left_inj _ |>.mp heq

section

variable {env : Env} {submission : DecisionSubmission} {s : Db} {request : DecisionRequest}
  {option : RequestOption} {actor : Device} {provided : DecisionSignature} {payload : String}

/-- A submission with a free nonce is signed, whatever the time. -/
theorem exists_signed (h : WellSigned P submission request option s actor provided payload)
    (hnonce : s.nonces.get? (actor.id, provided.keyId, provided.nonce) = none) :
    ∃ nonces, Signed P env submission request option s
      (some (signatureRecord actor provided provided.requestDigest payload))
      { s with nonces := nonces } := by
  obtain ⟨nonces, hins⟩ := Table.exists_insert? (t := s.nonces)
    (r := nonceRow actor provided (env.nowString 2)) hnonce
  exact ⟨nonces, .device actor provided payload nonces h.actorDevice h.signature h.publicKey h.keyId
    h.valid h.enrolled hins⟩

/-- An answer that is not taken is stored. -/
theorem exists_stored (hs : Tables P s) (hread : readRequest P s submission.requestId = .ok request)
    (hpending : request.status = .pending)
    (hrecipient : ∀ userId, submission.actorUserId = some userId → userId ∈ request.recipients)
    (huser : request.decisionResolution = .perUser → ∃ userId,
      submission.actorUserId = some userId ∧
        s.userDecisions.get? (submission.requestId, userId) = none)
    (nonces : Table NonceRow.key) (decision : Decision) (at_ : String) :
    ∃ stored, Stored submission.requestId submission.actorUserId decision at_
      { s with nonces := nonces } request.decisionResolution stored := by
  obtain ⟨row, version, digest, hrow, hreads⟩ := (readRequest_eq_ok P).mp hread
  cases hresolution : request.decisionResolution with
  | shared =>
    refine ⟨_, .shared ⟨row, Table.mem_of_get? hrow, ?_⟩⟩
    exact isPendingRow_of hrow (hreads.status ▸ hpending)
  | perUser =>
    obtain ⟨userId, hactor, hfree⟩ := huser hresolution
    have hstored : s.requests.get? submission.requestId ≠ none := by
      rw [hrow]
      exact Option.some_ne_none row
    have hknown : s.users.get? userId ≠ none := by
      have hmem := hrecipient userId hactor
      rw [hreads.recipients, recipients_relatedOf] at hmem
      obtain ⟨r, hr, rfl⟩ := List.mem_map.mp hmem
      exact hs.known r (List.mem_filter.mp hr).1
    obtain ⟨userDecisions, hins⟩ := Table.exists_insert? (t := s.userDecisions)
      (r := ⟨submission.requestId, userId, decision, at_⟩) hfree
    exact ⟨_, .user userId userDecisions hactor hstored hknown hins⟩

/-- A submission is accepted if it passes its checks and neither its nonce nor its answer is
    taken. -/
theorem exists_recorded (hs : WellFormed P s) (hready : Ready env s)
    (hchecked : Checked P env submission s request option)
    (hsigned : WellSigned P submission request option s actor provided payload)
    (hnonce : s.nonces.get? (actor.id, provided.keyId, provided.nonce) = none)
    (huser : request.decisionResolution = .perUser → ∃ userId,
      submission.actorUserId = some userId ∧
        s.userDecisions.get? (submission.requestId, userId) = none)
    {node : String} (hnode : s.integrationMeta.get? "node_id" = some ("node_id", node)) :
    ∃ r, Prog.eval databaseError (recordDecision P env submission) s = .ok r := by
  obtain ⟨nonces, hsigned⟩ := @exists_signed P env _ _ _ _ _ _ _ hsigned hnonce
  obtain ⟨stored, hstored⟩ := exists_stored hs.toTables hchecked.read hchecked.pending
    hchecked.recipient huser nonces
    (decisionOf submission option (some (signatureRecord actor provided provided.requestDigest payload))
      (env.now 1)) (env.nowString 1)
  obtain ⟨resolved, hresolved⟩ := exists_read_of_stored (t := env.now 1) hstored hchecked.read
    hchecked.pending hready.resolved
  have hid : resolved.id = submission.requestId := id_of_readRequest P hresolved
  obtain ⟨row, version, digest, hrow, hreads⟩ := (readRequest_eq_ok P).mp hchecked.read
  obtain ⟨row', hrow', -⟩ := hstored.row hrow
  have hrevision := (hstored.times hrow (hreads.status ▸ hchecked.pending) hrow').2.1
  have hrest := hstored.rest
  have hevents : stored.events = s.events := by rw [hrest]
  have hcallbacks : stored.callbacks = s.callbacks := by rw [hrest]
  have hmeta : stored.integrationMeta = s.integrationMeta := by rw [hrest]
  obtain ⟨s', happend⟩ := @exists_eval_appendLifecycleOn (env.newId 0) (env.nowString 3) _ resolved
    answerRecorded (some (decisionOf submission option
      (some (signatureRecord actor provided provided.requestDigest payload)) (env.now 1))) stored _
    (hid ▸ hrow') (hmeta ▸ hnode)
    (by rw [hevents, hrevision, hid]; exact unused_revision hs hrow)
    (by rw [hevents]; exact hready.event)
    (by rw [hcallbacks]; exact unused_delivery hs hready.event)
  exact ⟨(resolved, s'), (eval_recordDecision_eq_ok P).mpr ⟨request, option, _, _, stored, hchecked,
    hsigned, hstored, hresolved, happend⟩⟩

end

end Nod.Server
