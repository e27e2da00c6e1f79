import Nod.Lib.Avoids
import Nod.Lib.Rfc3339Order
import Nod.Server.Readback
import Nod.Server.Acceptance

/-
  Two readings of an expiry. A decision is refused once the stored instant is at or before the
  clock (`checkExpiry`); the sweep expires a pending request once its stored text sorts at or
  before the clock's text (`isDueRow`).
  Proved: in every reachable state both agree on a request exactly when the clock's year has at
  most four digits (`expiry_agreement`); from the year 10000 on the clock's text starts with a
  sign, so that no request is due although every answer is refused (`five_digit_year_disagrees`).
-/

namespace Nod.Server

open Lib Nod.Proto

variable {P : Packages}

/-! ## A refusal that only the expiry check gives -/

def requestHasExpired : ApiError := .conflict "request has expired"

theorem avoids_digestError {α : Type} (x : Except SigningError α) :
    Avoids requestHasExpired (digestError x) :=
  avoids_mapError fun _ => nofun

theorem avoids_digestCandidates (request : DecisionRequest) :
    Avoids requestHasExpired (digestCandidates P request) := by
  unfold digestCandidates
  dsimp only
  split
  · refine avoids_bind (avoids_orElse nofun) fun _ => ?_
    refine avoids_bind (avoids_digestError _) fun _ => ?_
    exact avoids_bind (avoids_digestError _) fun _ => avoids_pure _
  · split
    · refine avoids_bind (avoids_digestError _) fun _ => ?_
      exact avoids_bind (avoids_digestError _) fun _ => avoids_pure _
    · exact avoids_pure _

theorem avoids_expectedPayload (request : DecisionRequest) (provided : DecisionSignature)
    (answer : Option AnswerValue) (input : DecisionSigningInput) :
    Avoids requestHasExpired (expectedPayload P request provided answer input) := by
  unfold expectedPayload
  split
  · refine avoids_bind (avoids_refuseIf nofun) fun _ => ?_
    refine avoids_bind (avoids_orElse nofun) fun _ => ?_
    exact avoids_bind (avoids_mapError fun _ => nofun) fun _ => avoids_digestError _
  · exact avoids_bind (avoids_refuseIf nofun) fun _ => avoids_pure _

theorem avoids_verifyValueDecisionSignature (request : DecisionRequest) (option : RequestOption)
    (actor : Device) (text : Option String) (provided : DecisionSignature)
    (answer : Option AnswerValue) : Avoids requestHasExpired
      (verifyValueDecisionSignature P request option actor text provided answer) := by
  unfold verifyValueDecisionSignature
  refine avoids_bind (avoids_orElse nofun) fun _ => ?_
  refine avoids_bind (avoids_orElse nofun) fun _ => ?_
  refine avoids_bind (avoids_refuseIf nofun) fun _ => ?_
  refine avoids_bind (avoids_refuseIf nofun) fun _ => ?_
  refine avoids_bind (avoids_refuseIf nofun) fun _ => ?_
  refine avoids_bind (avoids_digestCandidates request) fun _ => ?_
  refine avoids_bind (avoids_refuseIf nofun) fun _ => ?_
  refine avoids_bind (avoids_orElse nofun) fun _ => ?_
  refine avoids_bind (avoids_expectedPayload _ _ _ _) fun _ => ?_
  exact avoids_bind (avoids_mapError fun _ => nofun) fun _ => avoids_pure _

theorem avoids_verifiedDecisionSignature (request : DecisionRequest) (option : RequestOption)
    (actorDevice : Option Device) (text : Option String) (provided : Option DecisionSignature)
    (answer : Option AnswerValue) (now : String) : Prog.Avoids requestHasExpired
      (verifiedDecisionSignature P request option actorDevice text provided answer now) := by
  have hnonce : (ApiError.conflict "decision signature nonce has already been used") ≠
      requestHasExpired := by decide
  unfold verifiedDecisionSignature
  split
  · refine Prog.avoids_bind (Prog.avoids_lift (avoids_refuseIf nofun)) fun _ => ?_
    exact Prog.avoids_pure _
  · refine Prog.avoids_bind (Prog.avoids_lift (avoids_refuseIf nofun)) fun _ => ?_
    refine Prog.avoids_bind (Prog.avoids_lift (avoids_orElse nofun)) fun _ => ?_
    refine Prog.avoids_bind (Prog.avoids_lift
      (avoids_verifyValueDecisionSignature _ _ _ _ _ _)) fun _ => ?_
    refine Prog.avoids_bind ?_ fun _ => Prog.avoids_pure _
    refine Prog.avoids_bind (Prog.avoids_onTx _) fun _ => ?_
    exact Prog.avoids_lift (avoids_refuseIf hnonce)

theorem avoids_storeUserDecision (id : String) (actorUserId : Option String)
    (decision : Decision) (at_ : String) :
    Prog.Avoids requestHasExpired (storeUserDecision id actorUserId decision at_) := by
  have hhandled : (ApiError.conflict "request was already handled by this user") ≠
      requestHasExpired := by decide
  unfold storeUserDecision
  refine Prog.avoids_bind (Prog.avoids_lift (avoids_orElse nofun)) fun _ => ?_
  refine Prog.avoids_bind (Prog.avoids_onTx _) fun _ => ?_
  refine Prog.avoids_bind (Prog.avoids_lift (avoids_refuseIf hhandled)) fun _ => ?_
  refine Prog.avoids_bind (Prog.avoids_query _) fun _ => ?_
  refine Prog.avoids_bind (Prog.avoids_query _) fun _ => ?_
  split
  · exact Prog.avoids_bind (Prog.avoids_onTx _) fun _ => Prog.avoids_pure _
  · exact Prog.avoids_bind (Prog.avoids_onTx _) fun _ => Prog.avoids_pure _

theorem avoids_storeSharedDecision (id : String) (decision : Decision) (at_ : String) :
    Prog.Avoids requestHasExpired (storeSharedDecision id decision at_) := by
  have hhandled : (ApiError.conflict "request was already handled") ≠ requestHasExpired := by
    decide
  unfold storeSharedDecision
  refine Prog.avoids_bind (Prog.avoids_onTx _) fun _ => ?_
  exact Prog.avoids_lift (avoids_refuseIf hhandled)

theorem avoids_appendLifecycleOn (eventId now : String) (request : DecisionRequest)
    (kind : String) (decision : Option Decision) :
    Prog.Avoids requestHasExpired (appendLifecycleOn eventId now request kind decision) := by
  unfold appendLifecycleOn
  refine Prog.avoids_bind (Prog.avoids_onTx _) fun _ => ?_
  refine Prog.avoids_bind (Prog.avoids_onTx _) fun _ => ?_
  refine Prog.avoids_bind (Prog.avoids_query _) fun _ => ?_
  refine Prog.avoids_bind (Prog.avoids_onTx _) fun _ => ?_
  refine Prog.avoids_bind (Prog.avoids_onTx _) fun _ => ?_
  split
  · exact Prog.avoids_onTx _
  · exact Prog.avoids_pure _

theorem avoids_requestFromRows (row : RequestRow) (related : RelatedRows) :
    Avoids requestHasExpired (requestFromRows P row related) := by
  have htime : ∀ value, Avoids requestHasExpired (parseTime P value) :=
    fun _ => avoids_orElse nofun
  have hoptional : ∀ value, Avoids requestHasExpired (parseOptionalTime P value) := by
    intro value
    cases value with
    | none => exact avoids_ok _
    | some value => exact avoids_bind (htime value) fun _ => avoids_ok _
  unfold requestFromRows
  refine avoids_bind (hoptional _) fun _ => ?_
  refine avoids_bind (htime _) fun _ => ?_
  refine avoids_bind (htime _) fun _ => ?_
  refine avoids_bind (hoptional _) fun _ => ?_
  exact avoids_bind (avoids_mapError fun _ => nofun) fun _ => avoids_pure _

theorem avoids_getRequestOn (id : String) :
    Prog.Avoids requestHasExpired (getRequestOn P id) := by
  unfold getRequestOn rowToRequest rowsToRequests
  refine Prog.avoids_bind (Prog.avoids_query _) fun _ => ?_
  refine Prog.avoids_bind (Prog.avoids_lift (avoids_orElse nofun)) fun _ => ?_
  refine Prog.avoids_bind ?_ fun _ => Prog.avoids_lift (avoids_orElse nofun)
  refine Prog.avoids_bind (Prog.avoids_query _) fun _ => ?_
  refine Prog.avoids_bind (Prog.avoids_query _) fun _ => ?_
  refine Prog.avoids_bind (Prog.avoids_query _) fun _ => Prog.avoids_lift ?_
  exact avoids_mapM (fun _ => avoids_requestFromRows _ _) _

/-! ## The expiry of a stored request -/

/-- A request that a run has stored with an expiry and left pending. -/
structure Expiring (P : Packages) where
  calls : List Call
  row : RequestRow
  stored : row ∈ (run P calls Db.empty).requests.rows
  pending : row.status = .pending
  expires : row.expiresAt ≠ none

/-- The stored text is that of a whole millisecond in a four-digit year. -/
theorem expiresAt_of_stored {db : Db} (hdb : WellFormed P db) {row : RequestRow}
    (hrow : row ∈ db.requests.rows) {text : String} (htext : row.expiresAt = some text) :
    ∃ e : DateTime, e.FourDigitYear ∧ e.truncMillis = e ∧ text = e.toRfc3339Millis := by
  obtain ⟨hgood, -⟩ := hdb.good (Table.get?_of_mem hrow)
  obtain ⟨env, req, creator, r, version, digest, -, -, hfrozen, -, hreads⟩ := hgood.admitted.accepted
  have hexpires : row.expiresAt = req.expiresAt.map DateTime.toRfc3339Millis :=
    congrArg RequestRow.expiresAt hfrozen
  rw [htext] at hexpires
  obtain ⟨e, he, rfl⟩ := Option.map_eq_some_iff.mp hexpires.symm
  have hparse := hreads.expiresAt
  have hcreated : (createdRow env req creator).expiresAt = some e.toRfc3339Millis := by
    show req.expiresAt.map DateTime.toRfc3339Millis = _
    rw [he, Option.map_some]
  rw [hcreated, Option.map_some] at hparse
  obtain ⟨u, -, hu⟩ := Option.map_eq_some_iff.mp hparse.symm
  obtain ⟨hyear, -⟩ := DateTime.parse_toRfc3339Millis_eq_some hu.symm
  exact ⟨e.truncMillis, hyear, e.truncMillis_truncMillis, e.toRfc3339Millis_truncMillis.symm⟩

theorem isDueRow_iff {row : RequestRow} {text now : String} (hpending : row.status = .pending)
    (htext : row.expiresAt = some text) : isDueRow now row = true ↔ text ≤ now := by
  unfold isDueRow
  rw [hpending, htext]
  simp only [decide_true, Bool.true_and, decide_eq_true_eq]

theorem checkExpiry_eq_error_iff {r : DecisionRequest} {e now : DateTime}
    (he : r.expiresAt = some e) : checkExpiry r now = .error requestHasExpired ↔ e ≤ now := by
  unfold checkExpiry refuseIf
  rw [he]
  simp only [Option.mem_some_iff, exists_eq_left']
  split
  · rename_i hle
    exact iff_of_true rfl hle
  · rename_i hle
    exact iff_of_false nofun hle

/-- The check refuses with one error only. -/
theorem checkExpiry_cases (r : DecisionRequest) (now : DateTime) :
    checkExpiry r now = .error requestHasExpired ∨ checkExpiry r now = .ok () := by
  unfold checkExpiry refuseIf
  split
  · exact Or.inl rfl
  · exact Or.inr rfl

/-! ## A decision on it and a sweep -/

/-- A submission that passes every check before the expiry check. -/
structure AtExpiryCheck (db : Db) (r : DecisionRequest) (submission : DecisionSubmission) :
    Prop where
  policy : answerPolicy r submission = .ok ()
  active : ∀ device, submission.actorDevice = some device → deviceActive device.id db = true
  recipient : ∀ userId, submission.actorUserId = some userId → userId ∈ r.recipients

/-- A submission that comes to the check is refused as expired by the check and by nothing else. -/
theorem recordDecision_expired_iff {db : Db} {r : DecisionRequest} {env : Env}
    {submission : DecisionSubmission} (hread : readRequest P db submission.requestId = .ok r)
    (h : AtExpiryCheck db r submission) :
    Prog.eval databaseError (recordDecision P env submission) db = .error requestHasExpired ↔
      checkExpiry r (env.now 0) = .error requestHasExpired := by
  have hactive : Prog.eval databaseError (checkActive submission.actorDevice) db = .ok ((), db) :=
    eval_checkActive_eq_ok.mpr ⟨h.active, rfl⟩
  have hrecipient : checkRecipient r submission.actorUserId = .ok () := by
    refine refuseIf_eq_ok.mpr ?_
    rintro ⟨userId, huser, hnot⟩
    exact hnot (h.recipient userId huser)
  rw [recordDecision, Prog.eval_bind, Prog.eval_beginTx]
  dsimp only
  rw [Prog.eval_bind, eval_getRequestOn, hread]
  simp only [Except.map]
  rw [h.policy, Prog.lift_ok, Prog.ret_bind, Prog.eval_bind, hactive]
  dsimp only
  rw [hrecipient, Prog.lift_ok, Prog.ret_bind]
  rcases checkExpiry_cases r (env.now 0) with hexpired | hlive
  · rw [hexpired]
    exact iff_of_true rfl rfl
  · rw [hlive, Prog.lift_ok, Prog.ret_bind]
    have hok : (Except.ok () : Except ApiError Unit) ≠ .error requestHasExpired := by
      intro h
      cases h
    refine iff_of_false (Prog.eval_ne_error ?_ (by decide) db) hok
    have hstatus : (ApiError.conflict "request is no longer pending") ≠ requestHasExpired := by
      decide
    refine Prog.avoids_bind (Prog.avoids_lift (avoids_orElse (by decide))) fun option => ?_
    refine Prog.avoids_bind (Prog.avoids_lift (avoids_refuseIf hstatus)) fun _ => ?_
    refine Prog.avoids_bind (avoids_verifiedDecisionSignature _ _ _ _ _ _ _) fun signature => ?_
    have hfinish : Prog.Avoids requestHasExpired (do
        let resolved ← getRequestOn P submission.requestId
        appendLifecycleOn (env.newId 0) (env.nowString 3) resolved answerRecorded
          (some (decisionOf submission option signature (env.now 1)))
        Prog.commitTx
        pure resolved) := by
      refine Prog.avoids_bind (avoids_getRequestOn _) fun _ => ?_
      refine Prog.avoids_bind (avoids_appendLifecycleOn _ _ _ _ _) fun _ => ?_
      exact Prog.avoids_bind Prog.avoids_commitTx fun _ => Prog.avoids_pure _
    split
    · exact Prog.avoids_bind (avoids_storeUserDecision _ _ _ _) fun _ => hfinish
    · exact Prog.avoids_bind (avoids_storeSharedDecision _ _ _) fun _ => hfinish

/-- A sweep leaves a pending request expired if it was due, and pending otherwise. -/
theorem sweep_expires_iff {db db' : Db} {env : Env} {rs : List DecisionRequest} {row : RequestRow}
    (hrow : row ∈ db.requests.rows) (hpending : row.status = .pending)
    (h : Prog.eval databaseError (expireDueRequests P env) db = .ok (rs, db')) :
    ∃ row', db'.requests.get? row.id = some row' ∧
      (row'.status = .expired ↔ isDueRow (env.nowString 0) row = true) := by
  have hget := Table.get?_of_mem hrow
  by_cases hdue : isDueRow (env.nowString 0) row = true
  · obtain ⟨ids, hids, happend⟩ := eval_expireDueRequests_eq_ok P h
    obtain ⟨hsame, hreads, -, hrows⟩ := expired_reads happend
    obtain ⟨r, hr⟩ := hreads row.id ((mem_due hids).mpr ⟨row, hget, hdue⟩)
    obtain ⟨row', -, -, hrow', -⟩ := (readRequest_eq_ok P).mp ((hsame row.id).trans hr)
    obtain ⟨mid, hmid, hstatus, -⟩ := hrows row.id row' hrow'
    have hupdated : (db.requests.update (isDueRow (env.nowString 0))
        (expiredRow (env.nowString 0)) fun _ => rfl).get? row.id =
          some (expiredRow (env.nowString 0) row) := Table.get?_update_of_pos hget hdue
    have hswept : mid = expiredRow (env.nowString 0) row :=
      Option.some.inj (hmid.symm.trans hupdated)
    refine ⟨row', hrow', iff_of_true ?_ hdue⟩
    rw [hstatus, hswept]
    rfl
  · have hkept := @kept_swept P env db db' rs h row.id (by
      intro other hother
      rw [hget] at hother
      rw [← Option.some.inj hother]
      exact hdue)
    refine ⟨row, hkept.request.trans hget, iff_of_false ?_ hdue⟩
    rw [hpending]
    decide

/-! ## Where they agree -/

/-- How the two readings of a pending request's expiry relate: they agree on a clock reading when
    its year has at most four digits and never otherwise, and so do a decision and a sweep; what
    is due stays due as long as the year has four digits, and what is refused stays refused. -/
structure ExpiryAgreement (c : Expiring P) (r : DecisionRequest) : Prop where
  readings : ∀ t : DateTime, (checkExpiry r t = .error requestHasExpired ↔
    isDueRow t.toRfc3339Millis c.row = true) ↔ t.year ≤ 9999
  decisions : ∀ env submission, submission.requestId = c.row.id →
    AtExpiryCheck (run P c.calls Db.empty) r submission →
    ((Prog.eval databaseError (recordDecision P env submission) (run P c.calls Db.empty) =
        .error requestHasExpired ↔ isDueRow (env.nowString 0) c.row = true) ↔
      (env.now 0).year ≤ 9999)
  sweeps : ∀ env rs db', Prog.eval databaseError (expireDueRequests P env)
    (run P c.calls Db.empty) = .ok (rs, db') → ∃ row', db'.requests.get? c.row.id = some row' ∧
      (row'.status = .expired ↔ isDueRow (env.nowString 0) c.row = true)
  due_later : ∀ t t' : DateTime, t ≤ t' → isDueRow t.toRfc3339Millis c.row = true →
    (isDueRow t'.toRfc3339Millis c.row = true ↔ t'.year ≤ 9999)
  refused_later : ∀ t t' : DateTime, t ≤ t' → checkExpiry r t = .error requestHasExpired →
    checkExpiry r t' = .error requestHasExpired

theorem expiry_agreement (c : Expiring P) :
    ∃ r, readRequest P (run P c.calls Db.empty) c.row.id = .ok r ∧ ExpiryAgreement c r := by
  have hget := Table.get?_of_mem c.stored
  obtain ⟨text, htext⟩ := Option.ne_none_iff_exists'.mp c.expires
  obtain ⟨e, hyear, hmillis, rfl⟩ :=
    expiresAt_of_stored (wellFormed_run_empty c.calls) c.stored htext
  obtain ⟨r, hr⟩ := (legible_run_empty (P := P) c.calls).reads c.row.id c.row hget
  obtain ⟨row, version, digest, hrow, hreads⟩ := (readRequest_eq_ok P).mp hr
  have hsame : row = c.row := Option.some.inj (hrow.symm.trans hget)
  subst hsame
  have hexpires : r.expiresAt = some e := by
    have hparse := hreads.expiresAt
    rw [htext, Option.map_some, DateTime.parse_toRfc3339Millis e hyear, hmillis] at hparse
    obtain ⟨u, hu, heq⟩ := Option.map_eq_some_iff.mp hparse.symm
    rw [hu, Option.some.inj heq]
  have hreadings : ∀ t : DateTime, (checkExpiry r t = .error requestHasExpired ↔
      isDueRow t.toRfc3339Millis c.row = true) ↔ t.year ≤ 9999 := by
    intro t
    rw [checkExpiry_eq_error_iff hexpires, isDueRow_iff c.pending htext,
      ← DateTime.order_agrees_iff (t := t) hyear hmillis]
    exact ⟨Iff.symm, Iff.symm⟩
  have hlater : ∀ t t' : DateTime, t ≤ t' → checkExpiry r t = .error requestHasExpired →
      checkExpiry r t' = .error requestHasExpired := by
    intro t t' htt hrefused
    rw [checkExpiry_eq_error_iff hexpires] at hrefused ⊢
    exact le_trans (show e.key ≤ t.key from hrefused) htt
  refine ⟨r, hr, hreadings, ?_, ?_, ?_, hlater⟩
  · intro env submission hid hat
    rw [recordDecision_expired_iff (hid ▸ hr) hat]
    exact hreadings (env.now 0)
  · intro env rs db' hsweep
    exact sweep_expires_iff c.stored c.pending hsweep
  · intro t t' htt hdue
    have htext' := (isDueRow_iff c.pending htext).mp hdue
    have hle : e ≤ t := ((DateTime.toRfc3339Millis_le hyear hmillis).mp htext').2
    have hrefused := hlater t t' htt ((checkExpiry_eq_error_iff hexpires).mpr hle)
    rw [← hreadings t']
    exact ⟨fun h => iff_of_true hrefused h, fun h => h.mp hrefused⟩

/-! ## A clock past the year 9999 -/

def expiringCreate : CreateCall :=
  ⟨sampleEnv, { sampleRequest with expiresAt := some sampleTime }, ⟨none, none, none⟩, []⟩

theorem expiringCreate_stored : createdRow sampleEnv expiringCreate.req none ∈
    (run samplePackages [open_ sampleEnv, expiringCreate.toCall] Db.empty).requests.rows := by
  have hpasses : ∃ fingerprint,
      Passes samplePackages expiringCreate.req expiringCreate.metadata fingerprint :=
    ⟨_, by rfl, by rfl, by rfl, requestFingerprint_none.mpr rfl⟩
  obtain ⟨fingerprint, hpasses⟩ := hpasses
  have hexpires : ∀ t ∈ expiringCreate.req.expiresAt, t.FourDigitYear := by
    intro t ht
    rw [← Option.some.inj ht]
    decide
  obtain ⟨created, s', node, hexec, -, hcreated⟩ := exists_created (tables_opened sampleEnv)
    (accepting_opened sampleEnv sampleEnv rfl rfl rfl (by decide) hexpires) hpasses
  have hafter : run samplePackages [open_ sampleEnv, expiringCreate.toCall] Db.empty = s' :=
    congrArg Prod.snd hexec
  rw [hafter, hcreated.requestRows]
  exact List.mem_append_right _ List.mem_cons_self

def expiringSample : Expiring samplePackages where
  calls := [open_ sampleEnv, expiringCreate.toCall]
  row := createdRow sampleEnv expiringCreate.req none
  stored := expiringCreate_stored
  pending := rfl
  expires := by decide

/-- In the year 10000 an answer to the request is refused as expired, and no sweep expires it. -/
theorem five_digit_year_disagrees : ∃ r,
    readRequest samplePackages (run samplePackages expiringSample.calls Db.empty)
      expiringSample.row.id = .ok r ∧
    checkExpiry r yearTenThousand = .error requestHasExpired ∧
    isDueRow yearTenThousand.toRfc3339Millis expiringSample.row = false := by
  have hget := Table.get?_of_mem expiringSample.stored
  obtain ⟨r, hr⟩ := (legible_run_empty (P := samplePackages) expiringSample.calls).reads _ _ hget
  obtain ⟨row, version, digest, hrow, hreads⟩ := (readRequest_eq_ok samplePackages).mp hr
  have hexpires : r.expiresAt = some sampleTime := by
    have hparse := hreads.expiresAt
    have htext : row.expiresAt = some sampleTime.toRfc3339Millis :=
      congrArg RequestRow.expiresAt (Option.some.inj (hrow.symm.trans hget))
    rw [htext, Option.map_some, DateTime.parse_toRfc3339Millis sampleTime (by decide)] at hparse
    obtain ⟨u, hu, heq⟩ := Option.map_eq_some_iff.mp hparse.symm
    rw [hu, Option.some.inj heq]
    decide
  exact ⟨r, hr, (checkExpiry_eq_error_iff hexpires).mpr (by decide), by decide⟩

end Nod.Server
