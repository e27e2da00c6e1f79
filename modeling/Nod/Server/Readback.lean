import Nod.Server.System

/-
  Requests a call does not speak of are left as they are (`Kept`), and everything that is stored
  reads back.
  Proved: `kept_*` for each way a call can end; `legible_run`, in every state the server reaches
  each stored request can be read, and only resolved ones carry a resolution time.
-/

namespace Nod.Server

open Lib Nod.Proto

variable {P : Packages}

/-! ## Requests that are left alone -/

def Db.answerRowsOf (db : Db) (id : String) : List UserDecisionRow :=
  db.userDecisions.rows.filter fun r => r.requestId = id

/-- The row of a request and its child rows stand. -/
structure Kept (s s' : Db) (id : String) : Prop where
  request : s'.requests.get? id = s.requests.get? id
  recipients : s'.recipientsOf id = s.recipientsOf id
  options : s'.optionsOf id = s.optionsOf id
  decisions : s'.answerRowsOf id = s.answerRowsOf id

theorem kept_refl (s : Db) (id : String) : Kept s s id := ⟨rfl, rfl, rfl, rfl⟩

theorem Kept.trans {s s' s'' : Db} {id : String} (h : Kept s s' id) (k : Kept s' s'' id) :
    Kept s s'' id :=
  ⟨k.request.trans h.request, k.recipients.trans h.recipients, k.options.trans h.options,
    k.decisions.trans h.decisions⟩

theorem relatedOf_eq (db : Db) (id : String) :
    db.relatedOf id =
      { recipients := db.recipientsOf id
        decisions := (((db.userDecisions.rows.filter fun r => r.requestId ∈ [id]).mergeSort
          UserDecisionRow.before).filter fun r => r.requestId = id).map
            fun r => ⟨r.userId, r.decision⟩
        options := db.optionsOf id } := by
  rw [← recipients_relatedOf, ← options_relatedOf]
  rfl

theorem relatedOf_congr {s s' : Db} {id : String} (hrecipients : s'.recipientsOf id = s.recipientsOf id)
    (hoptions : s'.optionsOf id = s.optionsOf id)
    (hdecisions : s'.answerRowsOf id = s.answerRowsOf id) : s'.relatedOf id = s.relatedOf id := by
  have hrows : ∀ db : Db, db.userDecisions.rows.filter (fun r => r.requestId ∈ [id]) =
      db.answerRowsOf id := by
    intro db
    apply List.filter_congr
    intro r _
    simp
  rw [relatedOf_eq, relatedOf_eq, hrows, hrows, hrecipients, hoptions, hdecisions]

theorem Kept.readRequest {s s' : Db} {id : String} (h : Kept s s' id) :
    readRequest P s' id = readRequest P s id := by
  rw [Server.readRequest, Server.readRequest, h.request,
    relatedOf_congr h.recipients h.options h.decisions]

theorem Kept.answersOf {s s' : Db} {id : String} (h : Kept s s' id) :
    s'.answersOf id = s.answersOf id :=
  congrArg (List.map fun r : UserDecisionRow => (r.userId, r.decision)) h.decisions

/-! ### One lemma for each way a call can end -/

theorem kept_quiet {s s' : Db} (hs : WellFormed P s) (h : Quiet P s s') (id : String) :
    Kept s s' id := by
  refine ⟨?_, ?_, ?_, ?_⟩
  · rw [h.requests hs.salted]
  · rw [Db.recipientsOf, h.recipients, Db.recipientsOf]
  · rw [Db.optionsOf, h.options, Db.optionsOf]
  · rw [Db.answerRowsOf, h.userDecisions, Db.answerRowsOf]

theorem kept_joined {s s' : Db} {created : CreatedDecisionRequest} (h : Joined P s s' created)
    (id : String) : Kept s s' id := by
  obtain ⟨idempotency, rfl⟩ := h.rest
  exact ⟨rfl, rfl, rfl, rfl⟩

theorem kept_bound {s s' : Db} (h : Bound s s') (id : String) : Kept s s' id := by
  obtain ⟨origins, rfl⟩ := h.rest
  exact ⟨rfl, rfl, rfl, rfl⟩

theorem kept_created {env : Env} {req : CreateDecisionRequest} {metadata : CreateRequestMetadata}
    {s s' : Db} {request : DecisionRequest} {recipients : List String} {node : String}
    (hs : WellFormed P s) (h : Created P env req metadata s s' request recipients node)
    {id : String} (hid : env.newId 0 ≠ id) : Kept s s' id := by
  refine ⟨?_, ?_, ?_, ?_⟩
  · rw [h.get?, if_neg hid]
  · rw [h.recipientsOf hs.toTables, if_neg hid]
  · rw [h.optionsOf hs.toTables, if_neg hid]
  · rw [h.rest]
    rfl

theorem kept_update {db : Db} {p : RequestRow → Bool} {f : RequestRow → RequestRow}
    {hf : ∀ r, (f r).id = r.id} {id : String}
    (h : ∀ row, db.requests.get? id = some row → ¬ p row = true) :
    Kept db { db with requests := db.requests.update p f hf } id := by
  refine ⟨?_, rfl, rfl, rfl⟩
  change (db.requests.update p f hf).get? id = _
  rw [Table.get?_update]
  cases hrow : db.requests.get? id with
  | none => rfl
  | some row => rw [Option.map_some, if_neg (h row hrow)]

theorem kept_appended {eventId now kind node : String} {request : DecisionRequest}
    {decision : Option Decision} {s s' : Db} {row : RequestRow}
    (h : Appended eventId now request kind decision s s' row node) {id : String}
    (hid : id ≠ request.id) : Kept s s' id := by
  refine ⟨?_, ?_, ?_, ?_⟩
  · rw [h.requests]
    exact Table.get?_update_of_ne (fun r hr => of_decide_eq_true hr) hid
  · rw [h.rest]
    rfl
  · rw [h.rest]
    rfl
  · rw [h.rest]
    rfl

theorem kept_stored {id at_ : String} {actorUserId : Option String} {decision : Decision}
    {s s' : Db} {resolution : DecisionResolution}
    (h : Stored id actorUserId decision at_ s resolution s') {other : String}
    (hne : other ≠ id) : Kept s s' other := by
  have hpending : ∀ row, s.requests.get? other = some row → ¬ isPendingRow id row = true :=
    fun row hrow hp => hne ((Table.key_of_get? hrow).symm.trans (id_of_isPendingRow hp))
  have hself : ∀ row, s.requests.get? other = some row → ¬ decide (row.id = id) = true :=
    fun row hrow hp => hne ((Table.key_of_get? hrow).symm.trans (of_decide_eq_true hp))
  cases h with
  | shared _ => exact kept_update hpending
  | user userId userDecisions _ _ _ hins =>
    have hanswered : Kept s { s with userDecisions := userDecisions } other := by
      refine ⟨rfl, rfl, rfl, ?_⟩
      have hdrop : ¬ decide (id = other) = true := fun heq => hne (of_decide_eq_true heq).symm
      rw [Db.answerRowsOf, (Table.insert?_eq_some.mp hins).2, List.filter_append, Db.answerRowsOf,
        List.filter_cons_of_neg (by exact hdrop), List.filter_nil, List.append_nil]
    refine hanswered.trans ?_
    unfold userAnswered
    dsimp only
    split
    · exact kept_update hpending
    · exact kept_update hself

theorem kept_recorded {env : Env} {submission : DecisionSubmission} {s s' : Db}
    {resolved : DecisionRequest}
    (h : Prog.eval databaseError (recordDecision P env submission) s = .ok (resolved, s'))
    {id : String} (hid : id ≠ submission.requestId) : Kept s s' id := by
  obtain ⟨request, option, signature, signed, stored, row, node, -, hsigned, hstored, hread,
    happended⟩ := recorded_of_eval P h
  have hnonces : Kept s signed id := by
    rw [hsigned.rest]
    exact ⟨rfl, rfl, rfl, rfl⟩
  have hresolved : resolved.id = submission.requestId := id_of_readRequest P hread
  exact (hnonces.trans (kept_stored hstored hid)).trans (kept_appended happended (hresolved ▸ hid))

theorem kept_cancelled {env : Env} {requestId : String} {s s' : Db} {r : DecisionRequest}
    (h : Prog.eval databaseError (cancelRequest P env requestId) s = .ok (r, s')) {id : String}
    (hid : id ≠ requestId) : Kept s s' id := by
  obtain ⟨-, hread, happend⟩ := eval_cancelRequest_eq_ok P h
  obtain ⟨row, node, happended⟩ := appended_of_eval happend
  have hr : r.id = requestId := id_of_readRequest P hread
  have hupdate : Kept s (cancelled requestId (env.nowString 0) s) id :=
    kept_update fun row hrow hp =>
      hid ((Table.key_of_get? hrow).symm.trans (id_of_isPendingRow hp))
  exact hupdate.trans (kept_appended happended (hr ▸ hid))

theorem kept_removed {gone : String → Bool} {s s' : Db} (h : Removed gone s s') {id : String}
    (hid : gone id = false) : Kept s s' id := by
  refine ⟨?_, ?_, ?_, ?_⟩
  · rw [h.requests, if_neg (by simp [hid])]
  · rw [Db.recipientsOf, h.recipients, filter_kept _ hid, Db.recipientsOf]
  · rw [Db.optionsOf, h.options, filter_kept _ hid, Db.optionsOf]
  · rw [Db.answerRowsOf, h.userDecisions, filter_kept _ hid, Db.answerRowsOf]

/-- The sweep reads every request it expires, and its appends are not seen by reads. -/
theorem expired_reads {env : Env} {k : Nat} {ids : List String} {s s' : Db}
    {rs : List DecisionRequest}
    (h : Prog.eval databaseError (appendExpired P env k ids) s = .ok (rs, s')) :
    (∀ id, readRequest P s' id = readRequest P s id) ∧
      (∀ id ∈ ids, ∃ r, readRequest P s id = .ok r) ∧ (∀ id, id ∉ ids → Kept s s' id) ∧
      ∀ id row', s'.requests.get? id = some row' → ∃ row, s.requests.get? id = some row ∧
        row'.status = row.status ∧ row'.resolvedAt = row.resolvedAt := by
  induction ids generalizing k s rs with
  | nil =>
    cases h
    exact ⟨fun _ => rfl, fun _ hid => absurd hid List.not_mem_nil, fun id _ => kept_refl _ id,
      fun _ row hrow => ⟨row, hrow, rfl, rfl⟩⟩
  | cons id ids ih =>
    simp only [appendExpired, Prog.eval_bind_eq_ok, eval_getRequestOn_eq_ok, Prog.eval_pure,
      Except.ok.injEq, Prod.mk.injEq] at h
    obtain ⟨request, _, ⟨hread, rfl⟩, _, mid, happend, rest, last, hrest, rfl, rfl⟩ := h
    obtain ⟨row, node, happended⟩ := appended_of_eval happend
    have hid : request.id = id := id_of_readRequest P hread
    obtain ⟨hsame, hreads, hkept, hrows⟩ := ih hrest
    refine ⟨fun other => (hsame other).trans (happended.readRequest other), ?_, ?_, ?_⟩
    · intro other hmem
      rcases List.mem_cons.mp hmem with rfl | hmem
      · exact ⟨request, hread⟩
      · rw [← happended.readRequest other]
        exact hreads other hmem
    · intro other hmem
      rw [List.mem_cons, not_or] at hmem
      exact (kept_appended happended (hid ▸ hmem.1)).trans (hkept other hmem.2)
    · intro other row' hrow'
      obtain ⟨mid', hmid', hstatus, hresolved⟩ := hrows other row' hrow'
      rw [happended.requests, Table.get?_update] at hmid'
      obtain ⟨old, hold, rfl⟩ := Option.map_eq_some_iff.mp hmid'
      refine ⟨old, hold, ?_, ?_⟩
      · rw [hstatus]
        split <;> rfl
      · rw [hresolved]
        split <;> rfl

theorem kept_swept {env : Env} {s s' : Db} {rs : List DecisionRequest}
    (h : Prog.eval databaseError (expireDueRequests P env) s = .ok (rs, s')) {id : String}
    (hid : ∀ row, s.requests.get? id = some row → ¬ isDueRow (env.nowString 0) row = true) :
    Kept s s' id := by
  obtain ⟨ids, hids, happend⟩ := eval_expireDueRequests_eq_ok P h
  obtain ⟨-, -, hkept, -⟩ := expired_reads happend
  refine Kept.trans (kept_update hid) (hkept id fun hmem => ?_)
  obtain ⟨row, hrow, hdue⟩ := (mem_due hids).mp hmem
  exact hid row hrow hdue

/-! ## Everything stored reads back -/

variable (P) in
/-- Stored requests can be read, and only resolved ones carry a resolution time. -/
structure Legible (s : Db) : Prop where
  reads : ∀ id row, s.requests.get? id = some row → ∃ r, readRequest P s id = .ok r
  unresolved : ∀ id row, s.requests.get? id = some row → row.status ≠ .resolved →
    row.resolvedAt = none

/-- One call keeps a state legible if it leaves each request alone, removes it, or leaves it
    readable. -/
theorem legible_of_requests {s s' : Db} (h : Legible P s)
    (hstep : ∀ id row', s'.requests.get? id = some row' → Kept s s' id ∨
      (∃ r, readRequest P s' id = .ok r) ∧ (row'.status ≠ .resolved → row'.resolvedAt = none)) :
    Legible P s' := by
  refine ⟨fun id row' hrow' => ?_, fun id row' hrow' => ?_⟩
  · rcases hstep id row' hrow' with hkept | ⟨hread, -⟩
    · rw [hkept.readRequest]
      exact h.reads id row' (hkept.request ▸ hrow')
    · exact hread
  · rcases hstep id row' hrow' with hkept | ⟨-, hresolved⟩
    · exact h.unresolved id row' (hkept.request ▸ hrow')
    · exact hresolved

theorem legible_created {env : Env} {req : CreateDecisionRequest}
    {metadata : CreateRequestMetadata} {s s' : Db} {request : DecisionRequest}
    {recipients : List String} {node : String} (hs : WellFormed P s) (hl : Legible P s)
    (h : Created P env req metadata s s' request recipients node) : Legible P s' := by
  refine legible_of_requests hl fun id row' hrow' => ?_
  by_cases hid : env.newId 0 = id
  · subst hid
    rw [h.get?, if_pos rfl] at hrow'
    rw [← Option.some.inj hrow']
    exact .inr ⟨⟨request, h.read⟩, fun _ => rfl⟩
  · exact .inl (kept_created hs h hid)

theorem row_of_update {t : Table RequestRow.id} {p : RequestRow → Bool}
    {f : RequestRow → RequestRow} {id : String} {row row' : RequestRow}
    (hf : ∀ r, (f r).id = r.id) (hrow : t.get? id = some row) (hp : p row = true)
    (h : (t.update p f hf).get? id = some row') : row' = f row := by
  rw [Table.get?_update_of_pos hrow hp] at h
  exact (Option.some.inj h).symm

/-- A stored answer resolves its request or leaves it as open as it was. -/
theorem Stored.openness {id at_ : String} {actorUserId : Option String} {decision : Decision}
    {s s' : Db} {resolution : DecisionResolution} {row row' : RequestRow}
    (h : Stored id actorUserId decision at_ s resolution s')
    (hrow : s.requests.get? id = some row) (hpending : row.status = .pending)
    (hrow' : s'.requests.get? id = some row') :
    row'.status = .resolved ∨ row'.resolvedAt = row.resolvedAt := by
  have hp := isPendingRow_of hrow hpending
  cases h with
  | shared _ =>
    have hanswered := row_of_update (fun _ => by rfl) hrow hp hrow'
    rw [hanswered]
    exact .inl rfl
  | user userId userDecisions _ _ _ _ =>
    unfold userAnswered at hrow'
    dsimp only at hrow'
    split at hrow'
    · have hlast := row_of_update (fun _ => by rfl) hrow hp hrow'
      rw [hlast]
      exact .inl rfl
    · have hself := decide_eq_true (Table.key_of_get? hrow)
      have hopen := row_of_update (fun _ => by rfl) hrow hself hrow'
      rw [hopen]
      exact .inr rfl

/-- An append leaves status and resolution time alone. -/
theorem Appended.openness {eventId now kind node : String} {request : DecisionRequest}
    {decision : Option Decision} {s s' : Db} {row : RequestRow}
    (h : Appended eventId now request kind decision s s' row node) {id : String}
    {row' : RequestRow} (hrow' : s'.requests.get? id = some row') :
    ∃ old, s.requests.get? id = some old ∧ row'.status = old.status ∧
      row'.resolvedAt = old.resolvedAt := by
  rw [h.requests, Table.get?_update] at hrow'
  obtain ⟨old, hold, rfl⟩ := Option.map_eq_some_iff.mp hrow'
  refine ⟨old, hold, ?_, ?_⟩
  · split <;> rfl
  · split <;> rfl

theorem legible_recorded {env : Env} {submission : DecisionSubmission} {s s' : Db}
    {resolved : DecisionRequest} (hl : Legible P s)
    (h : Prog.eval databaseError (recordDecision P env submission) s = .ok (resolved, s')) :
    Legible P s' := by
  refine legible_of_requests hl fun id row' hrow' => ?_
  by_cases hid : id = submission.requestId
  · subst hid
    obtain ⟨request, option, signature, signed, stored, row, node, hchecked, hsigned, hstored,
      hread, happended⟩ := recorded_of_eval P h
    refine .inr ⟨⟨resolved, (happended.readRequest _).trans hread⟩, fun hunresolved => ?_⟩
    obtain ⟨old, version, digest, hold, hreads⟩ := (readRequest_eq_ok P).mp hchecked.read
    have hpending : old.status = .pending := hreads.status ▸ hchecked.pending
    have hsignedRow : signed.requests.get? submission.requestId = some old := by
      rw [hsigned.rest]
      exact hold
    obtain ⟨mid, hmid, hstatus, hresolvedAt⟩ := happended.openness hrow'
    rw [hresolvedAt]
    rcases hstored.openness hsignedRow hpending hmid with hresolved | hsame
    · exact absurd (hstatus.trans hresolved) hunresolved
    · rw [hsame]
      refine hl.unresolved _ old hold ?_
      rw [hpending]
      decide
  · exact .inl (kept_recorded h hid)

theorem legible_cancelled {env : Env} {requestId : String} {s s' : Db} {r : DecisionRequest}
    (hl : Legible P s)
    (h : Prog.eval databaseError (cancelRequest P env requestId) s = .ok (r, s')) :
    Legible P s' := by
  refine legible_of_requests hl fun id row' hrow' => ?_
  by_cases hid : id = requestId
  · subst hid
    obtain ⟨⟨row, hrow, hpending⟩, hread, happend⟩ := eval_cancelRequest_eq_ok P h
    obtain ⟨old, node, happended⟩ := appended_of_eval happend
    refine .inr ⟨⟨r, (happended.readRequest _).trans hread⟩, fun _ => ?_⟩
    obtain ⟨mid, hmid, -, hresolvedAt⟩ := happended.openness hrow'
    have hp := isPendingRow_of hrow hpending
    have hcancelled := row_of_update (fun _ => by rfl) hrow hp hmid
    rw [hresolvedAt, hcancelled]
    refine hl.unresolved _ row hrow ?_
    rw [hpending]
    decide
  · exact .inl (kept_cancelled h hid)

theorem legible_swept {env : Env} {s s' : Db} {rs : List DecisionRequest} (hl : Legible P s)
    (h : Prog.eval databaseError (expireDueRequests P env) s = .ok (rs, s')) : Legible P s' := by
  refine legible_of_requests hl fun id row' hrow' => ?_
  by_cases hdue : ∃ row, s.requests.get? id = some row ∧ isDueRow (env.nowString 0) row = true
  · obtain ⟨row, hrow, hdue⟩ := hdue
    obtain ⟨ids, hids, happend⟩ := eval_expireDueRequests_eq_ok P h
    obtain ⟨hsame, hreads, -, hrows⟩ := expired_reads happend
    obtain ⟨r, hr⟩ := hreads id ((mem_due hids).mpr ⟨row, hrow, hdue⟩)
    refine .inr ⟨⟨r, (hsame id).trans hr⟩, fun _ => ?_⟩
    obtain ⟨mid, hmid, -, hresolvedAt⟩ := hrows id row' hrow'
    have hexpired := row_of_update (fun _ => by rfl) hrow hdue hmid
    rw [hresolvedAt, hexpired]
    refine hl.unresolved _ row hrow ?_
    rw [isDueRow_pending hdue]
    decide
  · exact .inl (kept_swept h fun row hrow hd => hdue ⟨row, hrow, hd⟩)

theorem legible_removed {gone : String → Bool} {s s' : Db} (hl : Legible P s)
    (h : Removed gone s s') : Legible P s' := by
  refine legible_of_requests hl fun id row' hrow' => ?_
  cases hgone : gone id with
  | true =>
    rw [h.requests, if_pos hgone] at hrow'
    cases hrow'
  | false => exact .inl (kept_removed h hgone)

theorem legible_pruneRetention {env : Env} {retentionDays : Int} {s : Db} (hl : Legible P s)
    (faults : List Bool) :
    Legible P (Prog.exec databaseError (pruneRetention env retentionDays) faults s).2 := by
  rcases exec_pruneRetention env retentionDays faults s with he | ⟨p, hp⟩
  · rw [he]
    exact hl
  · rw [hp]
    exact legible_removed hl (removed_deleteRequests s p)

theorem legible_call (c : Call) {s : Db} (hs : WellFormed P s) (hl : Legible P s) :
    Legible P (c.after P s) := by
  obtain ⟨op, faults⟩ := c
  unfold Call.after Call.exec
  cases op with
  | admin op =>
    exact legible_of_requests hl fun id _ _ => .inl (kept_quiet hs (quiet_admin P op faults s) id)
  | deleteChannel channelId =>
    exact Prog.exec_post (R := fun r => Legible P r.2) (transactional_deleteChannel channelId)
      (fun _ => hl) (fun _ _ h => legible_removed hl (removed_deleteChannel h)) faults
  | createRequest env req metadata =>
    refine Prog.exec_post (R := fun r => Legible P r.2)
      (transactional_createRequest P env req metadata) (fun _ => hl) (fun _ _ h => ?_) faults
    rcases created_of_eval P h with hjoined | ⟨-, -, recipients, node, hcreated⟩
    · exact legible_of_requests hl fun id _ _ => .inl (kept_joined hjoined id)
    · exact legible_created hs hl hcreated
  | recordDecision env submission =>
    exact Prog.exec_post (R := fun r => Legible P r.2)
      (transactional_recordDecision P env submission) (fun _ => hl)
      (fun _ _ h => legible_recorded hl h) faults
  | bindOrigin principal requestId origin =>
    have hbound := bound_bindOrigin principal requestId origin faults s
    exact legible_of_requests hl fun id _ _ => .inl (kept_bound hbound id)
  | cancelRequest env requestId =>
    exact Prog.exec_post (R := fun r => Legible P r.2)
      (transactional_cancelRequest P env requestId) (fun _ => hl)
      (fun _ _ h => legible_cancelled hl h) faults
  | expireDueRequests env =>
    exact Prog.exec_post (R := fun r => Legible P r.2)
      (transactional_expireDueRequests P env) (fun _ => hl)
      (fun _ _ h => legible_swept hl h) faults
  | pruneRetention env retentionDays => exact legible_pruneRetention hl faults

theorem legible_run (calls : List Call) {s : Db} (hs : WellFormed P s) (hl : Legible P s) :
    Legible P (run P calls s) := by
  induction calls generalizing s with
  | nil => exact hl
  | cons c calls ih => exact ih ((moves_call c hs).wellFormed hs) (legible_call c hs hl)

theorem legible_run_empty (calls : List Call) : Legible P (run P calls Db.empty) :=
  legible_run calls (wellFormed_empty P) ⟨fun _ _ h => (by cases h), fun _ _ h => (by cases h)⟩

end Nod.Server
