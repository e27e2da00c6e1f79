import Nod.Server.RequestLifecycle

/-
  The lifecycle journal over a run. `JournalOf` is the journal of a request whose last stored
  revision was `n`; `Journaled` is what one call adds to the journal and to the callback outbox.
  Proved: `journal_complete`, both hold in every state the server reaches, for every request ever
  created and for every call.
-/

namespace Nod.Server

open Lib Nod.Proto

/-! ## What the journal holds -/

/-- The row of a request when a run last stored it. -/
def lastStored (P : Packages) : List Call → Db → String → Option RequestRow
  | [], s, id => s.requests.get? id
  | c :: calls, s, id => (lastStored P calls (c.after P s) id).or (s.requests.get? id)

/-- Revisions 1 to `n` in sequence order: the create, the answers, and at most one end without an
    answer. -/
structure JournalOf (s : Db) (id : String) (n : Nat) : Prop where
  revisions : (s.eventsOf id).map EventRow.revision = List.range' 1 n
  ordered : ((s.eventsOf id).map EventRow.seq).Pairwise (· < ·)
  kinds : ∃ answers ending, (s.eventsOf id).map EventRow.kind =
      requestCreated :: (List.replicate answers answerRecorded ++ ending) ∧
    (ending = [] ∨ ending = [requestCancelled] ∨ ending = [requestExpired])

/-! ## What a call adds -/

/-- The events and the deliveries a call has added. -/
structure Adds (s s' : Db) (events : List EventRow) (callbacks : List CallbackRow) : Prop where
  events : s'.events.rows = s.events.rows ++ events
  callbacks : s'.callbacks.rows = s.callbacks.rows ++ callbacks

/-- One event of this request and kind, with its decision. -/
structure EventIs (e : EventRow) (requestId kind : String) (decision : Option Decision) : Prop where
  requestId : e.requestId = requestId
  kind : e.kind = kind
  decision : e.detail.decision = decision

/-- The delivery of an event goes to the callback of its request. -/
structure CallbackIs (c : CallbackRow) (e : EventRow) (url : String) : Prop where
  eventId : c.eventId = e.eventId
  requestId : c.requestId = e.requestId
  revision : c.requestRevision = e.revision
  url : c.url = url

/-- A new request is one event; a join or a replay is none. -/
def CreateJournaled (s : Db) : Except ApiError CreatedDecisionRequest × Db → Prop
  | (.ok created, s') =>
    if created.deduped then Adds s s' [] []
    else ∃ e, Adds s s' [e] [] ∧ EventIs e created.requestId requestCreated none
  | (.error _, s') => Adds s s' [] []

/-- An accepted answer is one event that carries the decision just stored, and one delivery when
    its request has a callback. -/
def DecisionJournaled (s : Db) (submission : DecisionSubmission) :
    Except ApiError DecisionRequest × Db → Prop
  | (.ok _, s') =>
    ∃ e decision row, s.requests.get? submission.requestId = some row ∧
      EventIs e submission.requestId answerRecorded (some decision) ∧
      decision.actorUserId = submission.actorUserId ∧
      decision ∈ s'.storedDecisions submission.requestId ∧
      match row.callbackUrl with
      | some url => ∃ c, Adds s s' [e] [c] ∧ CallbackIs c e url
      | none => Adds s s' [e] []
  | (.error _, s') => Adds s s' [] []

def CancelJournaled (s : Db) (requestId : String) : Except ApiError DecisionRequest × Db → Prop
  | (.ok _, s') => ∃ e, Adds s s' [e] [] ∧ EventIs e requestId requestCancelled none
  | (.error _, s') => Adds s s' [] []

/-- One event for each request the sweep returns. -/
def SweepJournaled (s : Db) : Except ApiError (List DecisionRequest) × Db → Prop
  | (.ok expired, s') =>
    ∃ events, Adds s s' events [] ∧
      events.map EventRow.requestId = expired.map DecisionRequest.id ∧
      ∀ e ∈ events, e.kind = requestExpired
  | (.error _, s') => Adds s s' [] []

/-- What a call adds to the journal; any other call adds nothing. -/
def Journaled (P : Packages) (s : Db) (c : Call) : Prop :=
  match c.op with
  | .createRequest env req metadata =>
    CreateJournaled s (Prog.exec databaseError (createRequest P env req metadata) c.faults s)
  | .recordDecision env submission =>
    DecisionJournaled s submission
      (Prog.exec databaseError (recordDecision P env submission) c.faults s)
  | .cancelRequest env requestId =>
    CancelJournaled s requestId (Prog.exec databaseError (cancelRequest P env requestId) c.faults s)
  | .expireDueRequests env =>
    SweepJournaled s (Prog.exec databaseError (expireDueRequests P env) c.faults s)
  | _ => Adds s (c.after P s) [] []

variable {P : Packages}

theorem adds_refl (s : Db) : Adds s s [] [] := ⟨(List.append_nil _).symm, (List.append_nil _).symm⟩

theorem adds_of_eq {s s' : Db} (hevents : s'.events = s.events) (hcallbacks : s'.callbacks = s.callbacks) :
    Adds s s' [] [] := by
  refine ⟨?_, ?_⟩
  · rw [hevents, List.append_nil]
  · rw [hcallbacks, List.append_nil]

theorem journaled_create {env : Env} {req : CreateDecisionRequest}
    {metadata : CreateRequestMetadata} {s s' : Db} {created : CreatedDecisionRequest}
    (h : Prog.eval databaseError (createRequest P env req metadata) s = .ok (created, s')) :
    CreateJournaled s (.ok created, s') := by
  unfold CreateJournaled
  rcases created_of_eval P h with hjoined | ⟨hdeduped, hid, recipients, node, hcreated⟩
  · simp only [hjoined.deduped, if_true]
    obtain ⟨idempotency, rfl⟩ := hjoined.rest
    exact adds_of_eq rfl rfl
  · simp only [hdeduped, Bool.false_eq_true, if_false]
    obtain ⟨origin, hevents⟩ := hcreated.event
    have hcallbacks : s'.callbacks = s.callbacks := by rw [hcreated.rest]
    have hread : created.request.id = env.newId 0 := id_of_readRequest P hcreated.read
    exact ⟨_, ⟨hevents, by rw [hcallbacks, List.append_nil]⟩, hread.trans hid.symm, rfl, rfl⟩

theorem journaled_cancel {env : Env} {id : String} {s s' : Db} {r : DecisionRequest}
    (h : Prog.eval databaseError (cancelRequest P env id) s = .ok (r, s')) :
    CancelJournaled s id (.ok r, s') := by
  obtain ⟨-, hread, happend⟩ := eval_cancelRequest_eq_ok P h
  obtain ⟨row, node, happended⟩ := appended_of_eval happend
  exact ⟨_, ⟨happended.events, happended.callbacks⟩, id_of_readRequest P hread, rfl, rfl⟩

theorem journaled_sweep {env : Env} {s s' : Db} {rs : List DecisionRequest} (hs : Tables P s)
    (h : Prog.eval databaseError (expireDueRequests P env) s = .ok (rs, s')) :
    SweepJournaled s (.ok rs, s') := by
  obtain ⟨ids, hids, happend⟩ := eval_expireDueRequests_eq_ok P h
  have hswept : Tables P (swept (env.nowString 0) s) := hs.update fun _ => rfl
  obtain ⟨-, hexpired, hrs⟩ := expired_of_eval hswept (nodup_due hids) happend
  obtain ⟨added, hevents, hadded, hkinds⟩ := hexpired.events
  refine ⟨added, ⟨hevents, ?_⟩, hadded.trans hrs.symm, hkinds⟩
  rw [hexpired.callbacks]
  exact (List.append_nil _).symm

/-! ## Answers -/

section Answer

variable {id at_ : String} {actorUserId : Option String} {decision : Decision} {s s' : Db}
  {resolution : DecisionResolution}

/-- Storing a decision leaves journal and outbox alone. -/
theorem Stored.rest (h : Stored id actorUserId decision at_ s resolution s') :
    s' = { s with requests := s'.requests, userDecisions := s'.userDecisions } := by
  cases h <;> rfl

theorem Stored.row {row : RequestRow} (h : Stored id actorUserId decision at_ s resolution s')
    (hrow : s.requests.get? id = some row) :
    ∃ row', s'.requests.get? id = some row' ∧ row'.frozen = row.frozen := by
  have hupdate : ∀ (p : RequestRow → Bool) (f : RequestRow → RequestRow)
      (hf : ∀ r, (f r).id = r.id), (f row).frozen = row.frozen →
      ∃ row', (s.requests.update p f hf).get? id = some row' ∧ row'.frozen = row.frozen := by
    intro p f hf hfrozen
    rw [Table.get?_update, hrow, Option.map_some]
    refine ⟨_, rfl, ?_⟩
    split
    · exact hfrozen
    · rfl
  cases h with
  | shared _ => exact hupdate (isPendingRow id) (resolvedRow (some decision) at_) (fun _ => rfl) rfl
  | user userId userDecisions _ _ _ _ =>
    unfold userAnswered
    dsimp only
    split
    · refine hupdate _ _ _ ?_
      rfl
    · refine hupdate _ _ _ ?_
      rfl

theorem Stored.mem_storedDecisions {row : RequestRow}
    (h : Stored id actorUserId decision at_ s resolution s')
    (hrow : s.requests.get? id = some row) (hpending : row.status = .pending) :
    decision ∈ s'.storedDecisions id := by
  cases h with
  | shared _ =>
    have hanswered : (s.requests.update (isPendingRow id) (resolvedRow (some decision) at_)
        fun _ => rfl).get? id = some (resolvedRow (some decision) at_ row) :=
      Table.get?_update_of_pos hrow (isPendingRow_of hrow hpending)
    rw [Db.storedDecisions, sharedAnswered, hanswered]
    exact List.mem_append_left _ List.mem_cons_self
  | user userId userDecisions _ _ _ hins =>
    have hanswers : (userAnswered id at_ userDecisions s).answersOf id =
        s.answersOf id ++ [(userId, decision)] := by
      refine (answersOf_insert hins id).trans ?_
      rw [if_pos rfl]
    rw [Db.storedDecisions, hanswers, List.map_append]
    exact List.mem_append_right _ (List.mem_append_right _ List.mem_cons_self)

end Answer

theorem Appended.storedDecisions {eventId now kind node : String} {request : DecisionRequest}
    {decision : Option Decision} {s s' : Db} {row : RequestRow}
    (h : Appended eventId now request kind decision s s' row node) :
    s'.storedDecisions request.id = s.storedDecisions request.id := by
  have hanswers : s'.answersOf request.id = s.answersOf request.id := by
    rw [h.rest]
    rfl
  rw [Db.storedDecisions, Db.storedDecisions, h.requestOf, h.stored, hanswers]
  rfl

theorem journaled_decision {env : Env} {submission : DecisionSubmission} {s s' : Db}
    {resolved : DecisionRequest}
    (h : Prog.eval databaseError (recordDecision P env submission) s = .ok (resolved, s')) :
    DecisionJournaled s submission (.ok resolved, s') := by
  obtain ⟨request, option, signature, signed, stored, row', node, hchecked, hsigned, hstored, hread,
    happended⟩ := recorded_of_eval P h
  obtain ⟨row, version, digest, hrow, hreads⟩ := (readRequest_eq_ok P).mp hchecked.read
  have hid : resolved.id = submission.requestId := id_of_readRequest P hread
  have hpending : row.status = .pending := hreads.status ▸ hchecked.pending
  have hsignedRow : signed.requests.get? submission.requestId = some row := by
    rw [hsigned.rest]
    exact hrow
  have hevents : stored.events = s.events := by
    rw [hstored.rest, hsigned.rest]
  have hcallbacks : stored.callbacks = s.callbacks := by
    rw [hstored.rest, hsigned.rest]
  have hurl : resolved.callbackUrl = row.callbackUrl := by
    obtain ⟨row'', version', digest', hrow'', hreads'⟩ := (readRequest_eq_ok P).mp hread
    obtain ⟨row₁, hrow₁, hfrozen⟩ := hstored.row hsignedRow
    rw [hrow₁] at hrow''
    cases hrow''
    have hsame : row''.frozen.callbackUrl = row.frozen.callbackUrl := by rw [hfrozen]
    rw [hreads'.callbackUrl]
    exact hsame
  have hmem := hstored.mem_storedDecisions hsignedRow hpending
  rw [← hid, ← happended.storedDecisions, hid] at hmem
  have hadded := happended.events
  have howed := happended.callbacks
  rw [hevents] at hadded
  rw [hcallbacks] at howed
  refine ⟨stored.nextEvent (env.newId 0) (env.nowString 3) node answerRecorded resolved row' _, _, row,
    hrow, ⟨hid, rfl, rfl⟩, rfl, hmem, ?_⟩
  cases hcallback : row.callbackUrl with
  | none =>
    rw [owedCallback_no_url (hurl.trans hcallback)] at howed
    exact ⟨hadded, howed⟩
  | some url =>
    rw [owedCallback_url (hurl.trans hcallback)] at howed
    exact ⟨_, ⟨hadded, howed⟩, rfl, rfl, rfl, rfl⟩

theorem journaled_call (c : Call) {s : Db} (hs : WellFormed P s) : Journaled P s c := by
  obtain ⟨op, faults⟩ := c
  cases op with
  | createRequest env req metadata =>
    exact Prog.exec_post (transactional_createRequest P env req metadata)
      (fun _ => adds_refl s) (fun _ _ h => journaled_create h) faults
  | recordDecision env submission =>
    exact Prog.exec_post (transactional_recordDecision P env submission)
      (fun _ => adds_refl s) (fun _ _ h => journaled_decision h) faults
  | bindOrigin principal requestId origin =>
    have hadds : Adds s (Prog.exec databaseError (bindOrigin principal requestId origin) faults s).2
        [] [] := by
      obtain ⟨origins, h⟩ := (bound_bindOrigin principal requestId origin faults s).rest
      rw [h]
      exact adds_of_eq rfl rfl
    exact hadds
  | cancelRequest env requestId =>
    exact Prog.exec_post (transactional_cancelRequest P env requestId)
      (fun _ => adds_refl s) (fun _ _ h => journaled_cancel h) faults
  | expireDueRequests env =>
    exact Prog.exec_post (transactional_expireDueRequests P env)
      (fun _ => adds_refl s) (fun _ _ h => journaled_sweep hs.toTables h) faults
  | pruneRetention env retentionDays =>
    have hadds : Adds s (Prog.exec databaseError (pruneRetention env retentionDays) faults s).2
        [] [] := by
      rcases exec_pruneRetention env retentionDays faults s with he | ⟨p, hp⟩
      · rw [he]
        exact adds_refl s
      · rw [hp]
        exact adds_of_eq rfl rfl
    exact hadds
  | deleteChannel channelId =>
    exact Prog.exec_post (R := fun r => Adds s r.2 [] []) (transactional_deleteChannel channelId)
      (fun _ => adds_refl s)
      (fun _ _ h => adds_of_eq (removed_deleteChannel h).events (removed_deleteChannel h).callbacks)
      faults
  | admin op =>
    have hquiet := quiet_admin P op faults s
    exact adds_of_eq hquiet.events hquiet.callbacks

/-! ## Runs -/

/-- A run remembers the poll it stored last, under the revision of the row it stored last. -/
theorem remembers_run (calls : List Call) {s : Db} (hs : WellFormed P s) {id : String}
    {last : Option (Poll.Ballot Content String Decision)}
    (h : Poll.Remembers (rules P) (s.track id) last)
    (hlast : ∀ row, s.requests.get? id = some row → last = some (s.ballotOf row)) :
    ∃ last', Poll.Remembers (rules P) ((run P calls s).track id) last' ∧
      last'.map Poll.Ballot.revision =
        ((lastStored P calls s id).map RequestRow.revision).or (last.map Poll.Ballot.revision) := by
  induction calls generalizing s last with
  | nil =>
    refine ⟨last, h, ?_⟩
    cases hrow : s.requests.get? id with
    | none => simp only [lastStored, hrow, Option.map_none, Option.none_or]
    | some row =>
      rw [hlast row hrow, lastStored, hrow]
      rfl
  | cons c calls ih =>
    have hmoves := moves_call c hs
    have hstep := Poll.remembers_step (rules P) h (hmoves.steps id)
    have hnext : ∀ row, (c.after P s).requests.get? id = some row →
        ((c.after P s).track id).ballot.or last = some ((c.after P s).ballotOf row) := by
      intro row hrow
      rw [ballot_of_get? hrow, Option.some_or]
    obtain ⟨last', hlast', hrevision⟩ := ih (hmoves.wellFormed hs) hstep hnext
    refine ⟨last', hlast', hrevision.trans ?_⟩
    rw [lastStored]
    cases hstored : lastStored P calls (c.after P s) id with
    | some row => rfl
    | none =>
      have hgone : (c.after P s).requests.get? id = none := by
        cases calls with
        | nil => exact hstored
        | cons c' calls' => exact (Option.or_eq_none_iff.mp hstored).2
      rw [ballot_of_get?_none hgone, Option.none_or, Option.none_or]
      cases hrow : s.requests.get? id with
      | none => rfl
      | some row =>
        rw [hlast row hrow]
        rfl

theorem journalOf_of_numbered {s : Db} (hs : Tables P s) {id : String}
    {b : Poll.Ballot Content String Decision} (hgood : Poll.Good (rules P) b)
    (hentries : (s.track id).entries = Poll.numbered (rules P) b.history) :
    JournalOf s id b.revision := by
  have hmap : (s.eventsOf id).map EventRow.entry =
      (List.range' 1 b.history.length).zip (b.history.map eventLabel) := hentries
  have hlength : (List.range' 1 b.history.length).length = (b.history.map eventLabel).length := by
    rw [List.length_range', List.length_map]
  refine ⟨?_, ?_, ?_⟩
  · have hfst := congrArg (List.map Prod.fst) hmap
    rw [List.map_fst_zip hlength.le, List.map_map] at hfst
    rw [hgood.revision, ← hfst]
    rfl
  · exact hs.ordered.sublist (List.filter_sublist.map _)
  · have hsnd := congrArg (List.map Prod.snd) hmap
    rw [List.map_snd_zip hlength.ge, List.map_map] at hsnd
    have hkinds := congrArg (List.map Prod.fst) hsnd
    rw [List.map_map, List.map_map] at hkinds
    have hanswers : ∀ ds : List Decision,
        (ds.map Poll.Event.answered).map (Prod.fst ∘ eventLabel) =
          List.replicate ds.length answerRecorded := by
      intro ds
      rw [List.map_map]
      exact List.map_const'
    refine ⟨(b.answers.map Prod.snd ++ b.outcome.toList).length,
      (Poll.closing b.phase).map (Prod.fst ∘ eventLabel), ?_, ?_⟩
    · rw [← hanswers, ← List.map_append]
      exact hkinds
    · cases b.phase with
      | «open» => exact Or.inl rfl
      | settled => exact Or.inl rfl
      | withdrawn => exact Or.inr (Or.inl rfl)
      | lapsed => exact Or.inr (Or.inr rfl)

theorem journal_of_run (calls : List Call) (id : String) :
    match lastStored P calls Db.empty id with
    | some row => JournalOf (run P calls Db.empty) id row.revision
    | none => (run P calls Db.empty).eventsOf id = [] := by
  obtain ⟨last, hlast, hrevision⟩ := @remembers_run P calls Db.empty
    (wellFormed_empty P) id none ⟨rfl, rfl⟩ (fun row hrow => by cases hrow)
  have hs := wellFormed_run_empty (P := P) calls
  cases hstored : lastStored P calls Db.empty id with
  | none =>
    rw [hstored] at hrevision
    cases last with
    | some b => cases hrevision
    | none => exact List.map_eq_nil_iff.mp hlast.2
  | some row =>
    rw [hstored] at hrevision
    cases last with
    | none => cases hrevision
    | some b =>
      have hjournal := journalOf_of_numbered hs.toTables hlast.2.1 hlast.2.2
      rw [show b.revision = row.revision from Option.some.inj hrevision] at hjournal
      exact hjournal

/-- Every request ever created has the journal of its last stored revision, every accepted change
    adds its event and its delivery, and no other call adds or removes one. -/
theorem journal_complete (calls : List Call) :
    (∀ id, match lastStored P calls Db.empty id with
      | some row => JournalOf (run P calls Db.empty) id row.revision
      | none => (run P calls Db.empty).eventsOf id = []) ∧
    ∀ c, Journaled P (run P calls Db.empty) c :=
  ⟨journal_of_run calls, fun c => journaled_call c (wellFormed_run_empty calls)⟩

end Nod.Server
