import Nod.Lib.Rfc3339Order
import Nod.Server.Answering

/-
  The times kept with a request: its last change, its resolution, and when each of its recipients
  answered.
  Proved: in every state the server reaches, each of them is the text of a whole millisecond in a
  four-digit year (`stamped_run_empty`). The call that writes such a time reads the request back
  before it commits, and a text with another year does not read back.
-/

namespace Nod.Server

open Lib Nod.Proto

variable {P : Packages}

/-! ## Stamps -/

/-- The text of a whole millisecond in a four-digit year. -/
def IsStamp (text : String) : Prop :=
  ∃ t : DateTime, t.FourDigitYear ∧ t.truncMillis = t ∧ text = t.toRfc3339Millis

theorem isStamp_of_parse {t u : DateTime}
    (h : DateTime.parseFromRfc3339 t.toRfc3339Millis = some u) : IsStamp t.toRfc3339Millis := by
  have hyear := (DateTime.parse_toRfc3339Millis_eq_some h).1
  exact ⟨t.truncMillis, hyear, t.truncMillis_truncMillis, t.toRfc3339Millis_truncMillis.symm⟩

/-- What reads back was changed at a time that can be read. -/
theorem isStamp_of_read {s : Db} {id : String} {r : DecisionRequest} {row : RequestRow}
    {t : DateTime} (hread : readRequest P s id = .ok r) (hrow : s.requests.get? id = some row)
    (htext : row.updatedAt = t.toRfc3339Millis) : IsStamp t.toRfc3339Millis := by
  obtain ⟨row', version, digest, hrow', hreads⟩ := (readRequest_eq_ok P).mp hread
  have hsame : row' = row := Option.some.inj (hrow'.symm.trans hrow)
  have hparse := hreads.updatedAt
  rw [hsame, htext] at hparse
  exact isStamp_of_parse hparse

structure StampedRequest (s : Db) (row : RequestRow) : Prop where
  updatedAt : IsStamp row.updatedAt
  resolvedAt : ∀ text ∈ row.resolvedAt, IsStamp text
  answers : ∀ d ∈ s.answerRowsOf row.id, IsStamp d.resolvedAt

def Stamped (s : Db) : Prop := ∀ row ∈ s.requests.rows, StampedRequest s row

/-! ## One call -/

/-- Requests that a call leaves alone need no second look. -/
theorem stamped_of_requests {s s' : Db} (hs : Stamped s)
    (hstep : ∀ row' ∈ s'.requests.rows, Kept s s' row'.id ∨ StampedRequest s' row') :
    Stamped s' := by
  intro row' hrow'
  obtain hkept | hnew := hstep row' hrow'
  · have hget := Table.get?_of_mem hrow'
    rw [hkept.request] at hget
    obtain ⟨hupdated, hresolved, hanswers⟩ := hs row' (Table.mem_of_get? hget)
    exact ⟨hupdated, hresolved, fun d hd => hanswers d (hkept.decisions ▸ hd)⟩
  · exact hnew

theorem stamped_update {s : Db} {p : RequestRow → Bool} {f : RequestRow → RequestRow}
    {hf : ∀ r, (f r).id = r.id} (hs : Stamped s)
    (hnew : ∀ row ∈ s.requests.rows, p row = true →
      IsStamp (f row).updatedAt ∧ ∀ text ∈ (f row).resolvedAt, IsStamp text) :
    Stamped { s with requests := s.requests.update p f hf } := by
  intro row' hrow'
  have hmem : row' ∈ s.requests.rows.map fun r => if p r then f r else r := hrow'
  obtain ⟨row, hrow, rfl⟩ := List.mem_map.mp hmem
  obtain ⟨hupdated, hresolved, hanswers⟩ := hs row hrow
  by_cases hp : p row = true
  · rw [if_pos hp]
    obtain ⟨hupdated', hresolved'⟩ := hnew row hrow hp
    refine ⟨hupdated', hresolved', fun d hd => hanswers d ?_⟩
    rw [← hf row]
    exact hd
  · rw [if_neg hp]
    exact ⟨hupdated, hresolved, hanswers⟩

/-- The journal takes no part in it. -/
theorem stamped_appended {eventId now kind node : String} {request : DecisionRequest}
    {decision : Option Decision} {s s' : Db} {row : RequestRow}
    (h : Appended eventId now request kind decision s s' row node) (hs : Stamped s) :
    Stamped s' := by
  intro row' hrow'
  have hget := Table.get?_of_mem hrow'
  rw [h.requests, Table.get?_update] at hget
  obtain ⟨old, hold, hnew⟩ := Option.map_eq_some_iff.mp hget
  obtain ⟨hupdated, hresolved, hanswers⟩ := hs old (Table.mem_of_get? hold)
  have hid : old.id = row'.id := Table.key_of_get? hold
  have hrows : s'.answerRowsOf row'.id = s.answerRowsOf old.id := by
    rw [h.rest, hid]
    rfl
  have htimes : row'.updatedAt = old.updatedAt ∧ row'.resolvedAt = old.resolvedAt := by
    rw [← hnew]
    split <;> exact ⟨rfl, rfl⟩
  refine ⟨htimes.1 ▸ hupdated, fun text htext => hresolved text (htimes.2 ▸ htext), fun d hd => ?_⟩
  exact hanswers d (hrows ▸ hd)

theorem stamped_created {env : Env} {req : CreateDecisionRequest}
    {metadata : CreateRequestMetadata} {s s' : Db} {request : DecisionRequest}
    {recipients : List String} {node : String} (hdb : WellFormed P s) (hs : Stamped s)
    (h : Created P env req metadata s s' request recipients node) : Stamped s' := by
  refine stamped_of_requests hs fun row' hrow' => ?_
  by_cases hid : env.newId 0 = row'.id
  · right
    have hget := Table.get?_of_mem hrow'
    rw [h.get?, if_pos hid] at hget
    have hcreated := Option.some.inj hget
    have hread : readRequest P s' row'.id = .ok request := hid ▸ h.read
    refine ⟨?_, fun text htext => ?_, fun d hd => ?_⟩
    · rw [← hcreated]
      exact isStamp_of_read hread (Table.get?_of_mem hrow') (congrArg RequestRow.updatedAt hcreated).symm
    · rw [← hcreated] at htext
      cases htext
    · have hnone := filter_of_unknown hdb.decisions h.fresh
      have hrows : s'.answerRowsOf row'.id = s.answerRowsOf (env.newId 0) := by
        rw [h.rest, hid]
        rfl
      rw [hrows, Db.answerRowsOf, hnone] at hd
      exact absurd hd List.not_mem_nil
  · exact Or.inl (kept_created hdb h hid)

/-- An answer has the time of the change that stored it. -/
theorem Stored.mem_answerRowsOf {id at_ : String} {actorUserId : Option String}
    {decision : Decision} {s s' : Db} {resolution : DecisionResolution}
    (h : Stored id actorUserId decision at_ s resolution s') {d : UserDecisionRow}
    (hd : d ∈ s'.answerRowsOf id) : d ∈ s.answerRowsOf id ∨ d.resolvedAt = at_ := by
  cases h with
  | shared _ => exact Or.inl hd
  | user userId userDecisions _ _ _ hins =>
    obtain ⟨hmem, hid⟩ := List.mem_filter.mp hd
    have hrow : d ∈ userDecisions.rows := hmem
    rw [(Table.insert?_eq_some.mp hins).2] at hrow
    obtain hold | hnew := List.mem_append.mp hrow
    · exact Or.inl (List.mem_filter.mpr ⟨hold, hid⟩)
    · rw [List.mem_singleton.mp hnew]
      exact Or.inr rfl

/-- An answer is stored only under a time that can be read back. -/
theorem isStamp_of_stored {env : Env} {actorUserId : Option String} {decision : Decision} {id : String}
    {resolution : DecisionResolution} {s s' : Db} {row : RequestRow} {r : DecisionRequest} {k : ℕ}
    (hstored : Stored id actorUserId decision (env.nowString k) s resolution s')
    (hrow : s.requests.get? id = some row) (hpending : row.status = .pending)
    (hread : readRequest P s' id = .ok r) : IsStamp (env.nowString k) := by
  obtain ⟨row', version, digest, hrow', -⟩ := (readRequest_eq_ok P).mp hread
  exact isStamp_of_read hread hrow' (hstored.times hrow hpending hrow').1

theorem stamped_recorded {env : Env} {submission : DecisionSubmission} {s s' : Db}
    {resolved : DecisionRequest} (hs : Stamped s)
    (h : Prog.eval databaseError (recordDecision P env submission) s = .ok (resolved, s')) :
    Stamped s' := by
  obtain ⟨request, option, signature, signed, stored, row, node, hchecked, hsigned, hstored,
    hread, happended⟩ := recorded_of_eval P h
  refine stamped_appended happended ?_
  have hsignedStamped : Stamped signed := by
    rw [hsigned.rest]
    exact fun row hrow => ⟨(hs row hrow).updatedAt, (hs row hrow).resolvedAt, (hs row hrow).answers⟩
  refine stamped_of_requests hsignedStamped fun row' hrow' => ?_
  by_cases hid : row'.id = submission.requestId
  · right
    obtain ⟨old, version, digest, hold, hreads⟩ := (readRequest_eq_ok P).mp hchecked.read
    have hpending : old.status = .pending := hreads.status ▸ hchecked.pending
    have hsignedRow : signed.requests.get? submission.requestId = some old := by
      rw [hsigned.rest]
      exact hold
    have hget := Table.get?_of_mem hrow'
    rw [hid] at hget
    obtain ⟨hupdated, -, hresolved⟩ := hstored.times hsignedRow hpending hget
    have hnow := isStamp_of_stored hstored hsignedRow hpending hread
    obtain ⟨-, holdResolved, holdAnswers⟩ := hsignedStamped old (Table.mem_of_get? hsignedRow)
    have holdId : old.id = submission.requestId := Table.key_of_get? hsignedRow
    refine ⟨hupdated ▸ hnow, fun text htext => ?_, fun d hd => ?_⟩
    · obtain hnew | hsame := hresolved
      · rw [hnew] at htext
        exact Option.some.inj htext ▸ hnow
      · exact holdResolved text (hsame ▸ htext)
    · obtain hbefore | hnew := hstored.mem_answerRowsOf (hid ▸ hd)
      · exact holdAnswers d (holdId ▸ hbefore)
      · exact hnew ▸ hnow
  · exact Or.inl (kept_stored hstored hid)

theorem stamped_cancelled {env : Env} {requestId : String} {s s' : Db} {r : DecisionRequest}
    (hs : Stamped s)
    (h : Prog.eval databaseError (cancelRequest P env requestId) s = .ok (r, s')) :
    Stamped s' := by
  obtain ⟨⟨row, hrow, hpending⟩, hread, happend⟩ := eval_cancelRequest_eq_ok P h
  obtain ⟨old, node, happended⟩ := appended_of_eval happend
  have hget : (s.requests.update (isPendingRow requestId) (cancelledRow (env.nowString 0))
      fun _ => rfl).get? requestId = some (cancelledRow (env.nowString 0) row) :=
    Table.get?_update_of_pos hrow (isPendingRow_of hrow hpending)
  have hnow : IsStamp (env.nowString 0) := isStamp_of_read hread hget rfl
  exact stamped_appended happended
    (stamped_update hs fun row' hrow' _ => ⟨hnow, (hs row' hrow').resolvedAt⟩)

theorem stamped_appendExpired {env : Env} {k : Nat} {ids : List String} {s s' : Db}
    {rs : List DecisionRequest} (hs : Stamped s)
    (h : Prog.eval databaseError (appendExpired P env k ids) s = .ok (rs, s')) : Stamped s' := by
  induction ids generalizing k s rs with
  | nil =>
    cases h
    exact hs
  | cons id ids ih =>
    simp only [appendExpired, Prog.eval_bind_eq_ok, eval_getRequestOn_eq_ok, Prog.eval_pure,
      Except.ok.injEq, Prod.mk.injEq] at h
    obtain ⟨request, _, ⟨-, rfl⟩, _, mid, happend, rest, last, hrest, rfl, rfl⟩ := h
    obtain ⟨row, node, happended⟩ := appended_of_eval happend
    exact ih (stamped_appended happended hs) hrest

theorem stamped_swept {env : Env} {s s' : Db} {rs : List DecisionRequest} (hs : Stamped s)
    (h : Prog.eval databaseError (expireDueRequests P env) s = .ok (rs, s')) : Stamped s' := by
  obtain ⟨ids, hids, happend⟩ := eval_expireDueRequests_eq_ok P h
  obtain ⟨-, hreads, -, -⟩ := expired_reads happend
  refine stamped_appendExpired (stamped_update hs fun row hrow hdue => ?_) happend
  have hget := Table.get?_of_mem hrow
  obtain ⟨r, hread⟩ := hreads row.id ((mem_due hids).mpr ⟨row, hget, hdue⟩)
  have hget' : (s.requests.update (isDueRow (env.nowString 0)) (expiredRow (env.nowString 0))
      fun _ => rfl).get? row.id = some (expiredRow (env.nowString 0) row) :=
    Table.get?_update_of_pos hget hdue
  exact ⟨isStamp_of_read hread hget' rfl, (hs row hrow).resolvedAt⟩

theorem stamped_removed {gone : String → Bool} {s s' : Db} (hs : Stamped s)
    (h : Removed gone s s') : Stamped s' := by
  refine stamped_of_requests hs fun row' hrow' => ?_
  have hget := Table.get?_of_mem hrow'
  cases hgone : gone row'.id with
  | true =>
    rw [h.requests, if_pos hgone] at hget
    cases hget
  | false => exact Or.inl (kept_removed h hgone)

theorem stamped_call (c : Call) {s : Db} (hdb : WellFormed P s) (hs : Stamped s) :
    Stamped (c.after P s) := by
  obtain ⟨op, faults⟩ := c
  unfold Call.after Call.exec
  cases op with
  | admin op =>
    exact stamped_of_requests hs fun row' _ =>
      Or.inl (kept_quiet hdb (quiet_admin P op faults s) row'.id)
  | deleteChannel channelId =>
    exact Prog.exec_post (R := fun r => Stamped r.2) (transactional_deleteChannel channelId)
      (fun _ => hs) (fun _ _ h => stamped_removed hs (removed_deleteChannel h)) faults
  | createRequest env req metadata =>
    refine Prog.exec_post (R := fun r => Stamped r.2)
      (transactional_createRequest P env req metadata) (fun _ => hs) (fun _ _ h => ?_) faults
    obtain hjoined | ⟨-, -, recipients, node, hcreated⟩ := created_of_eval P h
    · exact stamped_of_requests hs fun row' _ => Or.inl (kept_joined hjoined row'.id)
    · exact stamped_created hdb hs hcreated
  | recordDecision env submission =>
    exact Prog.exec_post (R := fun r => Stamped r.2)
      (transactional_recordDecision P env submission) (fun _ => hs)
      (fun _ _ h => stamped_recorded hs h) faults
  | bindOrigin principal requestId origin =>
    have hbound := bound_bindOrigin principal requestId origin faults s
    exact stamped_of_requests hs fun row' _ => Or.inl (kept_bound hbound row'.id)
  | cancelRequest env requestId =>
    exact Prog.exec_post (R := fun r => Stamped r.2)
      (transactional_cancelRequest P env requestId) (fun _ => hs)
      (fun _ _ h => stamped_cancelled hs h) faults
  | expireDueRequests env =>
    exact Prog.exec_post (R := fun r => Stamped r.2)
      (transactional_expireDueRequests P env) (fun _ => hs)
      (fun _ _ h => stamped_swept hs h) faults
  | pruneRetention env retentionDays =>
    change Stamped (Prog.exec databaseError (pruneRetention env retentionDays) faults s).2
    obtain hsame | ⟨p, hp⟩ := exec_pruneRetention env retentionDays faults s
    · rw [hsame]
      exact hs
    · rw [hp]
      exact stamped_removed hs (removed_deleteRequests s p)

/-! ## Every run -/

theorem stamped_run (calls : List Call) {s : Db} (hdb : WellFormed P s) (hs : Stamped s) :
    Stamped (run P calls s) := by
  induction calls generalizing s with
  | nil => exact hs
  | cons c calls ih => exact ih ((moves_call c hdb).wellFormed hdb) (stamped_call c hdb hs)

theorem stamped_run_empty (calls : List Call) : Stamped (run P calls Db.empty) :=
  stamped_run calls (wellFormed_empty P) fun _ hrow => absurd hrow List.not_mem_nil

end Nod.Server
