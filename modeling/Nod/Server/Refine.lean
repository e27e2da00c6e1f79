import Nod.Server.BindOrigin
import Nod.Server.Model

/-
  Every call of the server moves each request's poll by at most one step. `Moves` says so of one
  change of the database, together with the upkeep of the tables.
  Proved: `moves_quiet`, `moves_joined`, `moves_created`, `moves_bound`, `moves_recorded`,
  `moves_cancelled`, `moves_swept` and `moves_deleted`, one for each way a call can end.
-/

namespace Nod.Server

open Lib Nod.Proto

variable (P : Packages)

/-- The tables are kept up, and each poll makes at most one step. -/
structure Moves (s s' : Db) : Prop where
  tables : Tables P s'
  steps : ∀ id, Poll.Step (rules P) (s.track id) (s'.track id)

variable {P}

theorem Moves.wellFormed {s s' : Db} (hs : WellFormed P s) (h : Moves P s s') : WellFormed P s' where
  toTables := h.tables
  polls id := Poll.inv_step (rules P) (hs.polls id) (h.steps id)

/-! ## Tracks -/

/-- What a track is read from. -/
theorem track_congr {db db' : Db} {id : String}
    (hrequest : db'.requests.get? id = db.requests.get? id)
    (hrecipients : db'.recipientsOf id = db.recipientsOf id)
    (hoptions : db'.optionsOf id = db.optionsOf id) (hanswers : db'.answersOf id = db.answersOf id)
    (hevents : db'.eventsOf id = db.eventsOf id) : db'.track id = db.track id := by
  unfold Db.track
  rw [hrequest, hevents]
  cases h : db.requests.get? id with
  | none => rfl
  | some row =>
    have hid : row.id = id := Table.key_of_get? h
    simp only [Option.map_some, Db.ballotOf, Db.contentOf, hid, hrecipients, hoptions, hanswers]

theorem ballot_of_get? {db : Db} {id : String} {row : RequestRow}
    (h : db.requests.get? id = some row) : (db.track id).ballot = some (db.ballotOf row) := by
  simp only [Db.track, h, Option.map_some]

theorem ballot_of_get?_none {db : Db} {id : String} (h : db.requests.get? id = none) :
    (db.track id).ballot = none := by
  simp only [Db.track, h, Option.map_none]

/-- One more event is one more entry of its request's journal. -/
theorem eventsOf_append {db db' : Db} {e : EventRow}
    (h : db'.events.rows = db.events.rows ++ [e]) (id : String) :
    db'.eventsOf id = db.eventsOf id ++ if e.requestId = id then [e] else [] := by
  rw [Db.eventsOf, h, List.filter_append, Db.eventsOf]
  congr 1
  by_cases hid : e.requestId = id
  · rw [if_pos hid]
    exact List.filter_cons_of_pos (decide_eq_true hid)
  · rw [if_neg hid]
    exact List.filter_cons_of_neg fun heq => hid (of_decide_eq_true heq)

section Append

variable {eventId now kind node : String} {request : DecisionRequest} {decision : Option Decision}
  {db db' : Db} {row : RequestRow}

theorem Appended.eventsOf (h : Appended eventId now request kind decision db db' row node)
    (id : String) :
    db'.eventsOf id = db.eventsOf id ++
      if request.id = id then [db.nextEvent eventId now node kind request row decision] else [] :=
  eventsOf_append h.events id

theorem Appended.requestOf (h : Appended eventId now request kind decision db db' row node) :
    db'.requests.get? request.id = some { row with revision := row.revision + 1 } := by
  rw [h.requests]
  exact get?_bump h.stored

/-- An append raises the revision and adds the entry of that revision. -/
theorem Appended.track_self (h : Appended eventId now request kind decision db db' row node)
    {b : Poll.Ballot Content String Decision} (hb : (db.track request.id).ballot = some b) :
    db'.track request.id =
      { ballot := some { b with revision := b.revision + 1 }
        entries := (db.track request.id).entries ++ [(b.revision + 1, kind, decision)] } := by
  rw [ballot_of_get? h.stored] at hb
  cases hb
  have hrecipients : db'.recipients = db.recipients := by rw [h.rest]
  have hoptions : db'.options = db.options := by rw [h.rest]
  have hanswers : db'.userDecisions = db.userDecisions := by rw [h.rest]
  have hballot : db'.ballotOf { row with revision := row.revision + 1 } =
      { db.ballotOf row with revision := row.revision + 1 } := by
    simp only [Db.ballotOf, Db.contentOf, Db.recipientsOf, Db.optionsOf, Db.answersOf, hrecipients,
      hoptions, hanswers]
    rfl
  unfold Db.track
  rw [h.requestOf, h.eventsOf, if_pos rfl, Option.map_some, hballot, List.map_append]
  rfl

theorem Appended.track_ne (h : Appended eventId now request kind decision db db' row node)
    {id : String} (hne : id ≠ request.id) : db'.track id = db.track id := by
  apply track_congr
  · rw [h.requests]
    exact Table.get?_update_of_ne (fun r hr => of_decide_eq_true hr) hne
  · rw [h.rest]
    rfl
  · rw [h.rest]
    rfl
  · rw [h.rest]
    rfl
  · rw [h.eventsOf, if_neg (Ne.symm hne), List.append_nil]

/-! ## The tables under a change -/

theorem Tables.update {db : Db} (h : Tables P db) {p : RequestRow → Bool}
    {f : RequestRow → RequestRow} {hf : ∀ r, (f r).id = r.id}
    (hsalt : ∀ r, (f r).recipientSalt = r.recipientSalt) :
    Tables P { db with requests := db.requests.update p f hf } := by
  have hkeys : ∀ id, db.requests.get? id ≠ none → (db.requests.update p f hf).get? id ≠ none :=
    fun _ => Table.get?_update_ne_none.mpr
  refine ⟨?_, fun r hr => hkeys _ (h.options r hr), fun r hr => hkeys _ (h.recipients r hr),
    fun r hr => hkeys _ (h.decisions r hr), h.known, h.userIds, h.keyed, h.ordered, h.seqs,
    h.callbacks⟩
  intro r hr
  obtain ⟨r', hr', rfl⟩ := List.mem_map.mp hr
  have := h.salted r' hr'
  split
  · rw [hsalt]
    exact this
  · exact this

theorem Tables.nonces {db : Db} (h : Tables P db) (nonces : Table NonceRow.key) :
    Tables P { db with nonces := nonces } :=
  ⟨h.salted, h.options, h.recipients, h.decisions, h.known, h.userIds, h.keyed, h.ordered, h.seqs,
    h.callbacks⟩

theorem Tables.userDecisions {db : Db} (h : Tables P db) {row : UserDecisionRow}
    {userDecisions : Table UserDecisionRow.key}
    (hins : db.userDecisions.insert? row = some userDecisions)
    (hknown : db.requests.get? row.requestId ≠ none) :
    Tables P { db with userDecisions := userDecisions } := by
  refine ⟨h.salted, h.options, h.recipients, fun r hr => ?_, h.known, h.userIds, h.keyed, h.ordered,
    h.seqs, h.callbacks⟩
  have hrows : r ∈ userDecisions.rows := hr
  rw [(Table.insert?_eq_some.mp hins).2, List.mem_append, List.mem_singleton] at hrows
  rcases hrows with hold | rfl
  · exact h.decisions r hold
  · exact hknown

/-- An event that was stored stays. -/
theorem Appended.get?_events (h : Appended eventId now request kind decision db db' row node)
    {id : String} (hid : db.events.get? id ≠ none) : db'.events.get? id ≠ none := by
  rw [ne_eq, Table.get?_eq_none, not_not] at hid ⊢
  rw [h.events, List.map_append]
  exact List.mem_append_left _ hid

theorem Appended.tables (h : Appended eventId now request kind decision db db' row node)
    (hdb : Tables P db) : Tables P db' := by
  have hbumped : Tables P { db with requests := db'.requests } := by
    rw [h.requests]
    exact hdb.update fun _ => rfl
  have hrecipients : db'.recipients = db.recipients := by rw [h.rest]
  have hoptions : db'.options = db.options := by rw [h.rest]
  have hdecisions : db'.userDecisions = db.userDecisions := by rw [h.rest]
  have husers : db'.users = db.users := by rw [h.rest]
  have hdevices : db'.devices = db.devices := by rw [h.rest]
  have hseq : db'.eventSeq = db.eventSeq + 1 := by rw [h.rest]
  refine ⟨hbumped.salted, ?_, ?_, ?_, ?_, ?_, ?_, ?_, ?_, ?_⟩
  · rw [hoptions]
    exact hbumped.options
  · rw [hrecipients]
    exact hbumped.recipients
  · rw [hdecisions]
    exact hbumped.decisions
  · rw [hrecipients, husers]
    exact hdb.known
  · rw [husers]
    exact hdb.userIds
  · rw [hdevices]
    exact hdb.keyed
  · rw [h.events, List.map_append, List.pairwise_append]
    refine ⟨hdb.ordered, List.pairwise_singleton _ _, ?_⟩
    intro n hn m hm
    obtain ⟨e, he, rfl⟩ := List.mem_map.mp hn
    rw [List.map_singleton, List.mem_singleton] at hm
    rw [hm]
    exact Nat.lt_succ_of_le (hdb.seqs e he)
  · rw [h.events, hseq]
    intro e he
    rcases List.mem_append.mp he with hold | hnew
    · exact Nat.le_succ_of_le (hdb.seqs e hold)
    · rw [List.mem_singleton.mp hnew]
      exact Nat.le_refl _
  · rw [h.callbacks]
    intro c hc
    rcases List.mem_append.mp hc with hold | hnew
    · obtain ⟨hev, hdelivery⟩ := hdb.callbacks c hold
      exact ⟨h.get?_events hev, hdelivery⟩
    · obtain ⟨hid, hdelivery, -⟩ := owedCallback_eventId (Option.mem_toList.mp hnew)
      refine ⟨?_, hid ▸ hdelivery⟩
      rw [hid, ne_eq, Table.get?_eq_none, not_not, h.events, List.map_append]
      exact List.mem_append_right _ List.mem_cons_self

end Append

/-! ## Changes of one row -/

section Update

variable {db : Db} {p : RequestRow → Bool} {f : RequestRow → RequestRow}
  {hf : ∀ r, (f r).id = r.id} {id : String}

theorem track_update {row : RequestRow} (h : db.requests.get? id = some row) (hp : p row = true)
    (hfrozen : (f row).frozen = row.frozen) :
    ({ db with requests := db.requests.update p f hf } : Db).track id =
      { ballot := some
          { db.ballotOf row with
            phase := phaseOf (f row).status, outcome := (f row).decision
            revision := (f row).revision }
        entries := (db.track id).entries } := by
  have hrow : (db.requests.update p f hf).get? id = some (f row) := Table.get?_update_of_pos h hp
  unfold Db.track
  simp only [hrow, Option.map_some, Db.ballotOf, Db.contentOf, hf row, hfrozen]
  rfl

theorem track_update_of_neg (h : ∀ row, db.requests.get? id = some row → ¬ p row = true) :
    ({ db with requests := db.requests.update p f hf } : Db).track id = db.track id := by
  refine track_congr ?_ rfl rfl rfl rfl
  change (db.requests.update p f hf).get? id = _
  rw [Table.get?_update]
  cases hrow : db.requests.get? id with
  | none => rfl
  | some row => rw [Option.map_some, if_neg (h row hrow)]

end Update

theorem isPendingRow_of {db : Db} {id : String} {row : RequestRow}
    (h : db.requests.get? id = some row) (hpending : row.status = .pending) :
    isPendingRow id row = true := by
  simp [isPendingRow, hpending, show row.id = id from Table.key_of_get? h]

theorem id_of_isPendingRow {id : String} {row : RequestRow} (h : isPendingRow id row = true) :
    row.id = id := by
  simp only [isPendingRow, Bool.and_eq_true, decide_eq_true_eq] at h
  exact h.1

theorem phaseOf_eq_open {status : RequestStatus} : phaseOf status = .open ↔ status = .pending := by
  cases status <;> simp [phaseOf]

/-! ## Quiet calls -/

/-- A change that keeps what the polls are read from. -/
theorem moves_quiet {s s' : Db} (hs : WellFormed P s) (h : Quiet P s s') : Moves P s s' := by
  have hrequests := h.requests hs.salted
  refine ⟨⟨?_, ?_, ?_, ?_, ?_, h.userIds hs.userIds, h.keyed hs.keyed, ?_, ?_, ?_⟩, fun id => ?_⟩
  · rw [hrequests]
    exact hs.salted
  · rw [h.options, hrequests]
    exact hs.options
  · rw [h.recipients, hrequests]
    exact hs.recipients
  · rw [h.userDecisions, hrequests]
    exact hs.decisions
  · rw [h.recipients]
    exact fun r hr => h.users _ (hs.known r hr)
  · rw [h.events]
    exact hs.ordered
  · rw [h.events, h.eventSeq]
    exact hs.seqs
  · rw [h.callbacks, h.events]
    exact hs.callbacks
  · have : s'.track id = s.track id := by
      apply track_congr
      · rw [hrequests]
      · rw [Db.recipientsOf, h.recipients, Db.recipientsOf]
      · rw [Db.optionsOf, h.options, Db.optionsOf]
      · rw [Db.answersOf, h.userDecisions, Db.answersOf]
      · rw [Db.eventsOf, h.events, Db.eventsOf]
    rw [this]
    exact .stay

/-- A create that joined a request changes its idempotency keys only. -/
theorem moves_joined {s s' : Db} {created : CreatedDecisionRequest} (hs : WellFormed P s)
    (h : Joined P s s' created) : Moves P s s' := by
  obtain ⟨idempotency, rfl⟩ := h.rest
  refine ⟨⟨hs.salted, hs.options, hs.recipients, hs.decisions, hs.known, hs.userIds, hs.keyed,
    hs.ordered, hs.seqs, hs.callbacks⟩, fun id => ?_⟩
  exact .stay

theorem moves_bound {s s' : Db} (hs : WellFormed P s) (h : Bound s s') : Moves P s s' := by
  obtain ⟨origins, rfl⟩ := h.rest
  refine ⟨⟨hs.salted, hs.options, hs.recipients, hs.decisions, hs.known, hs.userIds, hs.keyed,
    hs.ordered, hs.seqs, hs.callbacks⟩, fun id => ?_⟩
  exact .stay

/-! ## One request changes and is journaled -/

/-- A change that ends with an append: the other requests stand, and this one makes the step. -/
theorem moves_appended {s mid s' : Db} {eventId now kind node : String}
    {request : DecisionRequest} {decision : Option Decision} {row : RequestRow}
    {b : Poll.Ballot Content String Decision} (htables : Tables P mid)
    (h : Appended eventId now request kind decision mid s' row node)
    (hothers : ∀ id, id ≠ request.id → mid.track id = s.track id)
    (hb : (mid.track request.id).ballot = some b)
    (hstep : Poll.Step (rules P) (s.track request.id)
      { ballot := some { b with revision := b.revision + 1 }
        entries := (mid.track request.id).entries ++ [(b.revision + 1, kind, decision)] }) :
    Moves P s s' := by
  refine ⟨h.tables htables, fun id => ?_⟩
  by_cases hid : id = request.id
  · rw [hid, h.track_self hb]
    exact hstep
  · rw [h.track_ne hid, hothers id hid]
    exact .stay

theorem track_cancelled {db : Db} {id : String} {row : RequestRow} (now : String)
    (h : db.requests.get? id = some row) (hpending : row.status = .pending) :
    (cancelled id now db).track id =
      { ballot := some { db.ballotOf row with phase := .withdrawn }
        entries := (db.track id).entries } :=
  track_update h (isPendingRow_of h hpending) rfl

theorem moves_cancelled {env : Env} {id : String} {s s' : Db} {r : DecisionRequest}
    (hs : WellFormed P s)
    (h : Prog.eval databaseError (cancelRequest P env id) s = .ok (r, s')) : Moves P s s' := by
  obtain ⟨⟨row, hrow, hpending⟩, hread, happend⟩ := eval_cancelRequest_eq_ok P h
  obtain ⟨row', node, happended⟩ := appended_of_eval happend
  have hid : r.id = id := id_of_readRequest P hread
  have htables : Tables P (cancelled id (env.nowString 0) s) := hs.toTables.update fun _ => rfl
  have htrack := track_cancelled (env.nowString 0) hrow hpending
  have hb : ((cancelled id (env.nowString 0) s).track r.id).ballot =
      some { s.ballotOf row with phase := .withdrawn } := by rw [hid, htrack]
  refine moves_appended htables happended (hid ▸ fun other hne => ?_) hb ?_
  · exact track_update_of_neg fun r' hr' hp =>
      hne ((Table.key_of_get? hr').symm.trans (id_of_isPendingRow hp))
  · rw [hid, htrack]
    exact .withdraw (s.ballotOf row) (ballot_of_get? hrow) (phaseOf_eq_open.mpr hpending)

/-! ## Decisions -/

theorem Signed.rest {env : Env} {submission : DecisionSubmission} {request : DecisionRequest}
    {option : RequestOption} {signature : Option DecisionSignatureRecord} {db signed : Db}
    (h : Signed P env submission request option db signature signed) :
    signed = { db with nonces := signed.nonces } := by
  cases h <;> rfl

theorem track_sharedAnswered {db : Db} {id : String} {row : RequestRow} (decision : Decision)
    (at_ : String) (h : db.requests.get? id = some row) (hpending : row.status = .pending) :
    (sharedAnswered id decision at_ db).track id =
      { ballot := some { db.ballotOf row with phase := .settled, outcome := some decision }
        entries := (db.track id).entries } :=
  track_update h (isPendingRow_of h hpending) rfl

theorem countRecipients_eq (id : String) (db : Db) :
    countRecipients id db = (db.recipientsOf id).length := by
  rw [countRecipients, List.countP_eq_length_filter, Db.recipientsOf, List.length_map]

theorem countUserDecisions_eq (id : String) (db : Db) :
    countUserDecisions id db = (db.answersOf id).length := by
  rw [countUserDecisions, List.countP_eq_length_filter, Db.answersOf, List.length_map]

theorem answersOf_insert {db : Db} {id userId at_ : String} {decision : Decision}
    {userDecisions : Table UserDecisionRow.key}
    (h : db.userDecisions.insert? ⟨id, userId, decision, at_⟩ = some userDecisions) (other : String) :
    ({ db with userDecisions := userDecisions } : Db).answersOf other =
      db.answersOf other ++ if id = other then [(userId, decision)] else [] := by
  simp only [Db.answersOf]
  rw [(Table.insert?_eq_some.mp h).2, List.filter_append, List.map_append]
  congr 1
  by_cases hid : id = other <;> simp [hid]

/-- The answer of one recipient is the poll's answer: the last one settles it. -/
theorem track_userAnswered {db : Db} {id userId at_ : String} {decision : Decision}
    {userDecisions : Table UserDecisionRow.key} {row : RequestRow}
    (h : db.requests.get? id = some row) (hpending : row.status = .pending)
    (hins : db.userDecisions.insert? ⟨id, userId, decision, at_⟩ = some userDecisions)
    (hmem : userId ∈ db.recipientsOf id) :
    (userAnswered id at_ userDecisions db).track id =
      { ballot := some
          { (db.ballotOf row).answer (rules P) userId decision with revision := row.revision }
        entries := (db.track id).entries } := by
  have hid : row.id = id := Table.key_of_get? h
  let answered : Db := { db with userDecisions := userDecisions }
  have hrow : answered.requests.get? id = some row := h
  have hanswers : answered.answersOf id = db.answersOf id ++ [(userId, decision)] := by
    rw [answersOf_insert hins, if_pos rfl]
  have hpos : 0 < countRecipients id answered := by
    rw [countRecipients_eq]
    exact List.length_pos_of_mem hmem
  have hclose : 0 < countRecipients id answered ∧
      countRecipients id answered ≤ countUserDecisions id answered ↔
        ((rules P).recipients (db.ballotOf row).content).length ≤
          (db.ballotOf row).answers.length + 1 := by
    rw [and_iff_right hpos, countRecipients_eq, countUserDecisions_eq, hanswers,
      List.length_append, List.length_singleton]
    simp only [rules, Db.ballotOf, Db.contentOf, hid]
    rfl
  have hballot : answered.ballotOf row =
      { db.ballotOf row with answers := db.answersOf id ++ [(userId, decision)] } := by
    simp only [Db.ballotOf, hid, hanswers]
    rfl
  have hold : (db.ballotOf row).answers = db.answersOf id := by
    simp only [Db.ballotOf, hid]
  have hstate : userAnswered id at_ userDecisions db = { answered with
      requests :=
        if 0 < countRecipients id answered ∧
            countRecipients id answered ≤ countUserDecisions id answered then
          answered.requests.update (isPendingRow id) (resolvedRow none at_) fun _ => rfl
        else answered.requests.update (fun r => r.id = id) (fun r => { r with updatedAt := at_ })
          fun _ => rfl } := rfl
  rw [hstate]
  by_cases hc : 0 < countRecipients id answered ∧
      countRecipients id answered ≤ countUserDecisions id answered
  · rw [if_pos hc]
    refine (track_update hrow (isPendingRow_of hrow hpending) rfl).trans ?_
    rw [hballot, Poll.Ballot.answer_last _ (hclose.mp hc), hold]
    rfl
  · rw [if_neg hc]
    refine (track_update hrow (decide_eq_true hid) rfl).trans ?_
    rw [hballot, Poll.Ballot.answer_pending _ fun hle => hc (hclose.mpr hle), hold, hpending]
    rfl

/-- The answer of a shared request settles its poll. -/
theorem moves_shared {env : Env} {submission : DecisionSubmission} {s s' : Db} {row row' : RequestRow}
    {resolved : DecisionRequest} {decision : Decision} {node : String} (hs : WellFormed P s)
    (hrow : s.requests.get? submission.requestId = some row) (hpending : row.status = .pending)
    (hshared : row.decisionResolution = .shared)
    (hid : resolved.id = submission.requestId)
    (h : Appended (env.newId 0) (env.nowString 3) resolved answerRecorded (some decision)
      (sharedAnswered submission.requestId decision (env.nowString 1) s) s' row' node) :
    Moves P s s' := by
  have htables : Tables P (sharedAnswered submission.requestId decision (env.nowString 1) s) :=
    hs.toTables.update fun _ => rfl
  have htrack := track_sharedAnswered decision (env.nowString 1) hrow hpending
  have hb : ((sharedAnswered submission.requestId decision (env.nowString 1) s).track
      resolved.id).ballot = some
        { s.ballotOf row with phase := .settled, outcome := some decision } := by
    rw [hid, htrack]
  refine moves_appended htables h (hid ▸ fun other hne => ?_) hb ?_
  · exact track_update_of_neg fun r hr hp =>
      hne ((Table.key_of_get? hr).symm.trans (id_of_isPendingRow hp))
  · rw [hid, htrack]
    exact .settle (s.ballotOf row) decision (ballot_of_get? hrow) (phaseOf_eq_open.mpr hpending)
      hshared

/-- An answer touches the rows of its own request only. -/
theorem track_userAnswered_ne {db : Db} {id userId at_ : String} {decision : Decision}
    {userDecisions : Table UserDecisionRow.key}
    (hins : db.userDecisions.insert? ⟨id, userId, decision, at_⟩ = some userDecisions)
    {other : String} (hne : other ≠ id) :
    (userAnswered id at_ userDecisions db).track other = db.track other := by
  refine track_congr ?_ rfl rfl ?_ rfl
  · unfold userAnswered
    dsimp only
    split
    · exact Table.get?_update_of_ne (fun r hr => id_of_isPendingRow hr) hne
    · exact Table.get?_update_of_ne (fun r hr => of_decide_eq_true hr) hne
  · refine (answersOf_insert hins other).trans ?_
    rw [if_neg (Ne.symm hne), List.append_nil]

theorem Tables.userAnswered {db : Db} (h : Tables P db) {id userId at_ : String}
    {decision : Decision} {userDecisions : Table UserDecisionRow.key}
    (hins : db.userDecisions.insert? ⟨id, userId, decision, at_⟩ = some userDecisions)
    (hknown : db.requests.get? id ≠ none) : Tables P (userAnswered id at_ userDecisions db) := by
  have hanswered := h.userDecisions hins hknown
  unfold Server.userAnswered
  dsimp only
  split
  · exact hanswered.update fun _ => rfl
  · exact hanswered.update fun _ => rfl

/-- One recipient's answer is one answer of the poll. -/
theorem moves_user {env : Env} {id userId : String} {s s' : Db} {row row' : RequestRow}
    {resolved : DecisionRequest} {decision : Decision} {node : String}
    {userDecisions : Table UserDecisionRow.key} (hs : WellFormed P s)
    (hrow : s.requests.get? id = some row) (hpending : row.status = .pending)
    (hperUser : row.decisionResolution = .perUser) (hmem : userId ∈ s.recipientsOf id)
    (hins : s.userDecisions.insert? ⟨id, userId, decision, env.nowString 1⟩ = some userDecisions)
    (hid : resolved.id = id)
    (h : Appended (env.newId 0) (env.nowString 3) resolved answerRecorded (some decision)
      (userAnswered id (env.nowString 1) userDecisions s) s' row' node) : Moves P s s' := by
  have hrowId : row.id = id := Table.key_of_get? hrow
  have htables := hs.toTables.userAnswered hins (by rw [hrow]; exact Option.some_ne_none _)
  have htrack := track_userAnswered (P := P) hrow hpending hins hmem
  have hb : ((userAnswered id (env.nowString 1) userDecisions s).track resolved.id).ballot = some
      { (s.ballotOf row).answer (rules P) userId decision with revision := row.revision } := by
    rw [hid, htrack]
  refine moves_appended htables h (fun other hne => track_userAnswered_ne hins (hid ▸ hne)) hb ?_
  rw [hid, htrack]
  refine .answer (s.ballotOf row) userId decision (ballot_of_get? hrow)
    (phaseOf_eq_open.mpr hpending) ?_ ?_ ?_
  · intro hshared
    have : row.decisionResolution = .shared := hshared
    rw [hperUser] at this
    cases this
  · change userId ∈ s.recipientsOf row.id
    rw [hrowId]
    exact hmem
  · change userId ∉ (s.answersOf row.id).map Prod.fst
    rw [hrowId]
    intro hanswered
    obtain ⟨⟨u, d⟩, hpair, rfl⟩ := List.mem_map.mp hanswered
    obtain ⟨r, hr, hpair⟩ := List.mem_map.mp hpair
    obtain ⟨hr, hreq⟩ := List.mem_filter.mp hr
    have hfree := Table.get?_eq_none.mp (Table.insert?_eq_some.mp hins).1
    refine hfree (List.mem_map.mpr ⟨r, hr, ?_⟩)
    rw [UserDecisionRow.key, of_decide_eq_true hreq, (Prod.mk.inj hpair).1]
    rfl

theorem moves_recorded {env : Env} {submission : DecisionSubmission} {s s' : Db}
    {resolved : DecisionRequest} (hs : WellFormed P s)
    (h : Prog.eval databaseError (recordDecision P env submission) s = .ok (resolved, s')) :
    Moves P s s' := by
  obtain ⟨request, option, signature, signed, stored, row', node, hchecked, hsigned, hstored, hread,
    happended⟩ := recorded_of_eval P h
  obtain ⟨row, version, digest, hrow, hreads⟩ := (readRequest_eq_ok P).mp hchecked.read
  have hid : resolved.id = submission.requestId := id_of_readRequest P hread
  have hpending : row.status = .pending := hreads.status ▸ hchecked.pending
  have hrest := hsigned.rest
  obtain ⟨hsignedTables, hsame⟩ : WellFormed P signed ∧ ∀ id, signed.track id = s.track id := by
    rw [hrest]
    exact ⟨⟨hs.toTables.nonces _, hs.polls⟩, fun _ => rfl⟩
  have hsignedRow : signed.requests.get? submission.requestId = some row := by
    rw [hrest]
    exact hrow
  suffices hmoves : Moves P signed s' from
    ⟨hmoves.tables, fun id => hsame id ▸ hmoves.steps id⟩
  generalize hres : request.decisionResolution = resolution at hstored
  cases hstored with
  | shared _ =>
    exact moves_shared hsignedTables hsignedRow hpending (hreads.decisionResolution ▸ hres) hid
      happended
  | user userId userDecisions huser _ _ hins =>
    have hmem : userId ∈ signed.recipientsOf submission.requestId := by
      have := hchecked.recipient userId huser
      rw [hreads.recipients, recipients_relatedOf] at this
      rw [hrest]
      exact this
    exact moves_user hsignedTables hsignedRow hpending (hreads.decisionResolution ▸ hres) hmem hins
      hid happended

/-! ## Creates -/

/-- Rows of one request among those of another. -/
theorem filter_append_map {α β : Type} (f : α → String) (g : β → α) (id other : String)
    (rows : List α) (new : List β) (hnew : ∀ b, f (g b) = id) :
    (rows ++ new.map g).filter (fun r => decide (f r = other)) =
      rows.filter (fun r => decide (f r = other)) ++ if id = other then new.map g else [] := by
  rw [List.filter_append]
  congr 1
  by_cases hid : id = other
  · rw [if_pos hid, List.filter_eq_self]
    intro r hr
    obtain ⟨b, -, rfl⟩ := List.mem_map.mp hr
    exact decide_eq_true ((hnew b).trans hid)
  · rw [if_neg hid, List.filter_eq_nil_iff]
    intro r hr
    obtain ⟨b, -, rfl⟩ := List.mem_map.mp hr
    exact fun heq => hid ((hnew b).symm.trans (of_decide_eq_true heq))

/-- A request that is not stored has no child rows. -/
theorem filter_of_unknown {α : Type} {f : α → String} {db : Db} {id : String} {rows : List α}
    (hrows : ∀ r ∈ rows, db.requests.get? (f r) ≠ none) (hid : db.requests.get? id = none) :
    rows.filter (fun r => decide (f r = id)) = [] := by
  rw [List.filter_eq_nil_iff]
  intro r hr heq
  exact hrows r hr (of_decide_eq_true heq ▸ hid)

section Create

variable {env : Env} {req : CreateDecisionRequest} {metadata : CreateRequestMetadata}
  {s s' : Db} {request : DecisionRequest} {recipients : List String} {node : String}

theorem Created.get? (h : Created P env req metadata s s' request recipients node) (id : String) :
    s'.requests.get? id =
      if env.newId 0 = id then some (createdRow env req metadata.createdByIssuerTokenId)
      else s.requests.get? id :=
  Table.get?_insert? (Table.insert?_eq_some.mpr ⟨h.fresh, h.requestRows⟩) id

theorem Created.recipientsOf (h : Created P env req metadata s s' request recipients node)
    (hs : Tables P s) (id : String) :
    s'.recipientsOf id = if env.newId 0 = id then recipients else s.recipientsOf id := by
  rw [Db.recipientsOf, h.recipientRows,
    filter_append_map RecipientRow.requestId _ (env.newId 0) id _ _ fun _ => rfl, List.map_append]
  by_cases hid : env.newId 0 = id
  · rw [if_pos hid, if_pos hid, filter_of_unknown hs.recipients (hid ▸ h.fresh), List.map_nil,
      List.nil_append, List.map_map]
    exact List.map_id _
  · rw [if_neg hid, if_neg hid, List.map_nil, List.append_nil, Db.recipientsOf]

theorem Created.optionsOf (h : Created P env req metadata s s' request recipients node)
    (hs : Tables P s) (id : String) :
    s'.optionsOf id =
      if env.newId 0 = id then normalizeOptions req.options else s.optionsOf id := by
  rw [Db.optionsOf, h.optionRows,
    filter_append_map OptionRow.requestId _ (env.newId 0) id _ _ fun _ => rfl, List.map_append]
  by_cases hid : env.newId 0 = id
  · rw [if_pos hid, if_pos hid, filter_of_unknown hs.options (hid ▸ h.fresh), List.map_nil,
      List.nil_append, List.map_map]
    exact List.map_id _
  · rw [if_neg hid, if_neg hid, List.map_nil, List.append_nil, Db.optionsOf]

theorem Created.answersOf (h : Created P env req metadata s s' request recipients node)
    (id : String) : s'.answersOf id = s.answersOf id := by
  rw [h.rest]
  rfl

theorem answersOf_unknown {db : Db} {id : String} (hdb : Tables P db)
    (h : db.requests.get? id = none) : db.answersOf id = [] := by
  rw [Db.answersOf, filter_of_unknown hdb.decisions h, List.map_nil]

theorem Created.eventsOf (h : Created P env req metadata s s' request recipients node)
    (id : String) :
    (s'.eventsOf id).map EventRow.entry = (s.eventsOf id).map EventRow.entry ++
      if env.newId 0 = id then [(1, requestCreated, none)] else [] := by
  obtain ⟨origin, hevents⟩ := h.event
  have hread : request.id = env.newId 0 := id_of_readRequest P h.read
  have hreq : (createdEvent env request node metadata.createdByIssuerTokenId origin
      (s.eventSeq + 1)).requestId = env.newId 0 := hread
  rw [eventsOf_append hevents, List.map_append, hreq]
  by_cases hid : env.newId 0 = id
  · rw [if_pos hid, if_pos hid]
    rfl
  · rw [if_neg hid, if_neg hid]
    rfl

/-- What a create writes reads back as its request. -/
theorem Created.reads (h : Created P env req metadata s s' request recipients node)
    (hs : Tables P s) :
    ∃ version digest, ReadsAs P (createdRow env req metadata.createdByIssuerTokenId)
      ⟨recipients, [], normalizeOptions req.options⟩ request version digest := by
  obtain ⟨row, version, digest, hrow, hreads⟩ := (readRequest_eq_ok P).mp h.read
  rw [h.get?, if_pos rfl] at hrow
  cases hrow
  have hrelated : s'.relatedOf (env.newId 0) =
      ⟨recipients, [], normalizeOptions req.options⟩ := by
    have hdecisions : (s'.relatedOf (env.newId 0)).decisions = [] := by
      rw [List.eq_nil_iff_forall_not_mem]
      intro d hd
      rw [mem_decisions_relatedOf, h.answersOf, answersOf_unknown hs h.fresh] at hd
      exact List.not_mem_nil hd
    have hrecipients := recipients_relatedOf s' (env.newId 0)
    have hoptions := options_relatedOf s' (env.newId 0)
    rw [h.recipientsOf hs, if_pos rfl] at hrecipients
    rw [h.optionsOf hs, if_pos rfl] at hoptions
    rw [← hrecipients, ← hoptions, ← hdecisions]
  exact ⟨version, digest, hrelated ▸ hreads⟩

theorem Created.tables (h : Created P env req metadata s s' request recipients node)
    (hs : Tables P s) : Tables P s' := by
  have hkeep : ∀ id, s.requests.get? id ≠ none → s'.requests.get? id ≠ none := by
    intro id hid
    rw [h.get?]
    split
    · exact Option.some_ne_none _
    · exact hid
  have hnew : s'.requests.get? (env.newId 0) ≠ none := by
    rw [h.get?, if_pos rfl]
    exact Option.some_ne_none _
  have hdecisions : s'.userDecisions = s.userDecisions := by rw [h.rest]
  have husers : s'.users = s.users := by rw [h.rest]
  have hdevices : s'.devices = s.devices := by rw [h.rest]
  have hcallbacks : s'.callbacks = s.callbacks := by rw [h.rest]
  have hseq : s'.eventSeq = s.eventSeq + 1 := by rw [h.rest]
  obtain ⟨origin, hevents⟩ := h.event
  refine ⟨?_, ?_, ?_, ?_, ?_, ?_, ?_, ?_, ?_, ?_⟩
  · rw [h.requestRows]
    intro r hr
    rcases List.mem_append.mp hr with hold | hlast
    · exact hs.salted r hold
    · rw [List.mem_singleton.mp hlast]
      exact env.salt_ne _
  · rw [h.optionRows]
    intro r hr
    rcases List.mem_append.mp hr with hold | hlast
    · exact hkeep _ (hs.options r hold)
    · obtain ⟨option, -, rfl⟩ := List.mem_map.mp hlast
      exact hnew
  · rw [h.recipientRows]
    intro r hr
    rcases List.mem_append.mp hr with hold | hlast
    · exact hkeep _ (hs.recipients r hold)
    · obtain ⟨userId, -, rfl⟩ := List.mem_map.mp hlast
      exact hnew
  · rw [hdecisions]
    exact fun r hr => hkeep _ (hs.decisions r hr)
  · rw [h.recipientRows, husers]
    intro r hr
    rcases List.mem_append.mp hr with hold | hlast
    · exact hs.known r hold
    · obtain ⟨userId, hmem, rfl⟩ := List.mem_map.mp hlast
      exact h.known userId hmem
  · rw [husers]
    exact hs.userIds
  · rw [hdevices]
    exact hs.keyed
  · rw [hevents, List.map_append, List.pairwise_append]
    refine ⟨hs.ordered, List.pairwise_singleton _ _, ?_⟩
    intro n hn m hm
    obtain ⟨e, he, rfl⟩ := List.mem_map.mp hn
    rw [List.map_singleton, List.mem_singleton] at hm
    rw [hm]
    exact Nat.lt_succ_of_le (hs.seqs e he)
  · rw [hevents, hseq]
    intro e he
    rcases List.mem_append.mp he with hold | hlast
    · exact Nat.le_succ_of_le (hs.seqs e hold)
    · rw [List.mem_singleton.mp hlast]
      exact Nat.le_refl _
  · rw [hcallbacks]
    intro c hc
    obtain ⟨hev, hdelivery⟩ := hs.callbacks c hc
    refine ⟨?_, hdelivery⟩
    rw [ne_eq, Table.get?_eq_none, not_not] at hev ⊢
    rw [hevents, List.map_append]
    exact List.mem_append_left _ hev

theorem Created.admitted (h : Created P env req metadata s s' request recipients node)
    (hs : Tables P s) :
    Admitted P ⟨(createdRow env req metadata.createdByIssuerTokenId).frozen, recipients,
      normalizeOptions req.options⟩ where
  accepted := by
    obtain ⟨version, digest, hreads⟩ := h.reads hs
    exact ⟨env, req, metadata.createdByIssuerTokenId, request, version, digest, h.valid,
      h.validOptions, rfl, rfl, hreads⟩
  recipientIds u hu := by
    obtain ⟨user, huser⟩ := Option.ne_none_iff_exists'.mp (h.known u hu)
    obtain ⟨label, hlabel⟩ := hs.userIds user (Table.mem_of_get? huser)
    exact ⟨label, (Table.key_of_get? huser) ▸ hlabel⟩

theorem moves_created (hs : WellFormed P s)
    (h : Created P env req metadata s s' request recipients node) : Moves P s s' := by
  refine ⟨h.tables hs.toTables, fun id => ?_⟩
  by_cases hid : env.newId 0 = id
  · subst hid
    let content : Content := ⟨(createdRow env req metadata.createdByIssuerTokenId).frozen, recipients,
      normalizeOptions req.options⟩
    have hballot : s'.ballotOf (createdRow env req metadata.createdByIssuerTokenId) =
        Poll.fresh content := by
      have hrecipients := h.recipientsOf hs.toTables (env.newId 0)
      have hoptions := h.optionsOf hs.toTables (env.newId 0)
      have hanswers := (h.answersOf (env.newId 0)).trans (answersOf_unknown hs.toTables h.fresh)
      rw [if_pos rfl] at hrecipients hoptions
      have hrow : (createdRow env req metadata.createdByIssuerTokenId).id = env.newId 0 := rfl
      simp only [Db.ballotOf, Db.contentOf, hrow, hrecipients, hoptions, hanswers]
      rfl
    have htrack : s'.track (env.newId 0) =
        (s.track (env.newId 0)).record (rules P) (Poll.fresh content) .created := by
      unfold Db.track
      rw [h.get?, if_pos rfl, h.eventsOf, if_pos rfl, Option.map_some, hballot]
      rfl
    rw [htrack]
    refine .create content (ballot_of_get?_none h.fresh) ?_ (h.admitted hs.toTables) ?_
    · intro e he
      obtain ⟨event, hevent, rfl⟩ := List.mem_map.mp he
      obtain ⟨hstored, hreq⟩ := List.mem_filter.mp hevent
      exact h.unused event hstored (of_decide_eq_true hreq)
    · have := nodup_recipientsOf s' (env.newId 0)
      rw [h.recipientsOf hs.toTables, if_pos rfl] at this
      exact this
  · have htrack : s'.track id = s.track id := by
      unfold Db.track
      rw [h.get?, if_neg hid, h.eventsOf, if_neg hid, List.append_nil]
      congr 1
      cases hrow : s.requests.get? id with
      | none => rfl
      | some row =>
        have hrowId : row.id = id := Table.key_of_get? hrow
        simp only [Option.map_some, Db.ballotOf, Db.contentOf, hrowId, h.answersOf,
          h.recipientsOf hs.toTables, h.optionsOf hs.toTables, if_neg hid]
    rw [htrack]
    exact .stay

end Create

/-! ## The sweep -/

/-- One more journal entry for each of some requests, and nothing else. -/
structure Expired (ids : List String) (s s' : Db) : Prop where
  listed : ∀ id ∈ ids, ∀ b, (s.track id).ballot = some b → s'.track id =
    { ballot := some { b with revision := b.revision + 1 }
      entries := (s.track id).entries ++ [(b.revision + 1, requestExpired, none)] }
  others : ∀ id, id ∉ ids → s'.track id = s.track id
  events : ∃ added, s'.events.rows = s.events.rows ++ added ∧
    added.map EventRow.requestId = ids ∧ ∀ e ∈ added, e.kind = requestExpired
  callbacks : s'.callbacks = s.callbacks
  nonces : s'.nonces = s.nonces
  devices : s'.devices = s.devices
  node : s'.integrationMeta = s.integrationMeta

theorem expired_of_eval {env : Env} {k : Nat} {ids : List String} {s s' : Db}
    {rs : List DecisionRequest} (hs : Tables P s) (hids : ids.Nodup)
    (h : Prog.eval databaseError (appendExpired P env k ids) s = .ok (rs, s')) :
    Tables P s' ∧ Expired ids s s' ∧ rs.map DecisionRequest.id = ids := by
  induction ids generalizing k s rs with
  | nil =>
    cases h
    exact ⟨hs, ⟨fun _ hid => absurd hid List.not_mem_nil, fun _ _ => rfl,
      ⟨[], (List.append_nil _).symm, rfl, fun _ he => absurd he List.not_mem_nil⟩, rfl, rfl, rfl,
      rfl⟩, rfl⟩
  | cons id ids ih =>
    simp only [appendExpired, Prog.eval_bind_eq_ok, eval_getRequestOn_eq_ok, Prog.eval_pure,
      Except.ok.injEq, Prod.mk.injEq] at h
    obtain ⟨request, _, ⟨hread, rfl⟩, _, mid, happend, rest, last, hrest, rfl, rfl⟩ := h
    obtain ⟨hnot, hids⟩ := List.nodup_cons.mp hids
    obtain ⟨row, node, happended⟩ := appended_of_eval happend
    have hid : request.id = id := id_of_readRequest P hread
    obtain ⟨htables, hexpired, hrest⟩ := ih (happended.tables hs) hids hrest
    obtain ⟨added, hevents, hadded, hkinds⟩ := hexpired.events
    refine ⟨htables, ⟨?_, ?_, ?_, ?_, ?_, ?_, ?_⟩, by rw [List.map_cons, hid, hrest]⟩
    · intro other hmem b hb
      by_cases hother : other = id
      · rw [hexpired.others other (hother ▸ hnot)]
        subst hother
        subst hid
        exact happended.track_self hb
      · have hsame := happended.track_ne (fun heq => hother (heq.trans hid))
        have htail := hexpired.listed other (List.mem_of_ne_of_mem hother hmem) b (hsame ▸ hb)
        rw [htail, hsame]
    · intro other hmem
      rw [List.mem_cons, not_or] at hmem
      rw [hexpired.others other hmem.2]
      exact happended.track_ne (hid ▸ hmem.1)
    · refine ⟨s.nextEvent (env.newId k) (env.nowString (k + 1)) node requestExpired request row none ::
        added, ?_, ?_, ?_⟩
      · rw [hevents, happended.events, List.append_assoc, List.singleton_append]
      · rw [List.map_cons, hadded]
        exact congrArg (· :: ids) hid
      · intro e he
        rcases List.mem_cons.mp he with rfl | he
        · rfl
        · exact hkinds e he
    · rw [hexpired.callbacks]
      apply Table.ext
      rw [happended.callbacks]
      exact List.append_nil _
    · rw [hexpired.nonces, happended.rest]
    · rw [hexpired.devices, happended.rest]
    · rw [hexpired.node, happended.rest]

theorem isDueRow_pending {now : String} {row : RequestRow} (h : isDueRow now row = true) :
    row.status = .pending := by
  simp only [isDueRow, Bool.and_eq_true, decide_eq_true_eq] at h
  exact h.1

theorem mem_due {s : Db} {now id : String} {ids : List String}
    (hids : ids.Perm ((s.requests.rows.filter (isDueRow now)).map RequestRow.id)) :
    id ∈ ids ↔ ∃ row, s.requests.get? id = some row ∧ isDueRow now row = true := by
  rw [hids.mem_iff, List.mem_map]
  constructor
  · rintro ⟨row, hrow, rfl⟩
    obtain ⟨hrow, hdue⟩ := List.mem_filter.mp hrow
    exact ⟨row, Table.get?_of_mem hrow, hdue⟩
  · rintro ⟨row, hrow, hdue⟩
    exact ⟨row, List.mem_filter.mpr ⟨Table.mem_of_get? hrow, hdue⟩, Table.key_of_get? hrow⟩

theorem nodup_due {s : Db} {now : String} {ids : List String}
    (hids : ids.Perm ((s.requests.rows.filter (isDueRow now)).map RequestRow.id)) : ids.Nodup :=
  hids.nodup_iff.mpr (s.requests.nodup.sublist (List.filter_sublist.map _))

/-- Every due request lapses, and the others stand. -/
theorem moves_swept {env : Env} {s s' : Db} {rs : List DecisionRequest} (hs : WellFormed P s)
    (h : Prog.eval databaseError (expireDueRequests P env) s = .ok (rs, s')) : Moves P s s' := by
  obtain ⟨ids, hids, happend⟩ := eval_expireDueRequests_eq_ok P h
  have hswept : Tables P (swept (env.nowString 0) s) := hs.toTables.update fun _ => rfl
  obtain ⟨htables, hexpired, -⟩ := expired_of_eval hswept (nodup_due hids) happend
  refine ⟨htables, fun id => ?_⟩
  by_cases hid : id ∈ ids
  · obtain ⟨row, hrow, hdue⟩ := (mem_due hids).mp hid
    have htrack : (swept (env.nowString 0) s).track id =
        { ballot := some { s.ballotOf row with phase := .lapsed }
          entries := (s.track id).entries } := track_update hrow hdue rfl
    rw [hexpired.listed id hid _ (congrArg Poll.Track.ballot htrack), htrack]
    exact .lapse (s.ballotOf row) (ballot_of_get? hrow)
      (phaseOf_eq_open.mpr (isDueRow_pending hdue))
  · have htrack : (swept (env.nowString 0) s).track id = s.track id :=
      track_update_of_neg fun row hrow hdue => hid ((mem_due hids).mpr ⟨row, hrow, hdue⟩)
    rw [hexpired.others id hid, htrack]
    exact .stay

/-! ## Deletes -/

/-- Requests go away with their child rows; journal, outbox and nonces stay. -/
structure Removed (gone : String → Bool) (s s' : Db) : Prop where
  requests : ∀ id, s'.requests.get? id = if gone id then none else s.requests.get? id
  recipients : s'.recipients.rows = s.recipients.rows.filter fun r => !gone r.requestId
  options : s'.options.rows = s.options.rows.filter fun r => !gone r.requestId
  userDecisions : s'.userDecisions.rows = s.userDecisions.rows.filter fun r => !gone r.requestId
  users : s'.users = s.users
  devices : s'.devices = s.devices
  nonces : s'.nonces = s.nonces
  node : s'.integrationMeta = s.integrationMeta
  eventSeq : s'.eventSeq = s.eventSeq
  events : s'.events = s.events
  callbacks : s'.callbacks = s.callbacks

/-- The child rows of a request that stays. -/
theorem filter_kept {α : Type} {f : α → String} {gone : String → Bool} {id : String}
    (rows : List α) (hid : gone id = false) :
    (rows.filter fun r => !gone (f r)).filter (fun r => decide (f r = id)) =
      rows.filter fun r => decide (f r = id) := by
  rw [List.filter_filter]
  apply List.filter_congr
  intro r _
  by_cases heq : f r = id
  · simp [heq, hid]
  · simp [heq]

theorem moves_removed {gone : String → Bool} {s s' : Db} (hs : WellFormed P s)
    (h : Removed gone s s') : Moves P s s' := by
  have hkeep : ∀ {α : Type} {f : α → String} {rows : List α},
      (∀ r ∈ rows, s.requests.get? (f r) ≠ none) →
        ∀ r ∈ rows.filter fun r => !gone (f r), s'.requests.get? (f r) ≠ none := by
    intro α f rows hrows r hr
    obtain ⟨hr, hstays⟩ := List.mem_filter.mp hr
    rw [h.requests, if_neg (by simpa using hstays)]
    exact hrows r hr
  refine ⟨⟨?_, ?_, ?_, ?_, ?_, ?_, ?_, ?_, ?_, ?_⟩, fun id => ?_⟩
  · intro r hr
    have hget := Table.get?_of_mem hr
    rw [h.requests] at hget
    split at hget
    · cases hget
    · exact hs.salted r (Table.mem_of_get? hget)
  · rw [h.options]
    exact hkeep hs.options
  · rw [h.recipients]
    exact hkeep hs.recipients
  · rw [h.userDecisions]
    exact hkeep hs.decisions
  · rw [h.recipients, h.users]
    exact fun r hr => hs.known r (List.mem_filter.mp hr).1
  · rw [h.users]
    exact hs.userIds
  · rw [h.devices]
    exact hs.keyed
  · rw [h.events]
    exact hs.ordered
  · rw [h.events, h.eventSeq]
    exact hs.seqs
  · rw [h.callbacks, h.events]
    exact hs.callbacks
  · have hevents : s'.eventsOf id = s.eventsOf id := by rw [Db.eventsOf, h.events, Db.eventsOf]
    cases hid : gone id with
    | true =>
      have htrack : s'.track id = { s.track id with ballot := none } := by
        unfold Db.track
        rw [h.requests, if_pos hid, hevents]
        rfl
      rw [htrack]
      exact .remove
    | false =>
      have htrack : s'.track id = s.track id := by
        apply track_congr
        · rw [h.requests, if_neg (by simp [hid])]
        · rw [Db.recipientsOf, h.recipients, filter_kept _ hid, Db.recipientsOf]
        · rw [Db.optionsOf, h.options, filter_kept _ hid, Db.optionsOf]
        · rw [Db.answersOf, h.userDecisions, filter_kept _ hid, Db.answersOf]
        · exact hevents
      rw [htrack]
      exact .stay

theorem get?_delete_any {s : Db} (p : RequestRow → Bool) (id : String) :
    (s.requests.delete p).get? id =
      if (s.requests.get? id).any p then none else s.requests.get? id := by
  rw [Table.get?_delete]
  cases s.requests.get? id with
  | none => rfl
  | some row =>
    rw [Option.filter_some, Option.any_some]
    cases p row <;> rfl

theorem removed_deleteRequests (s : Db) (p : RequestRow → Bool) :
    Removed (fun id => (s.requests.get? id).any p) s (s.deleteRequests p) :=
  ⟨get?_delete_any p, rfl, rfl, rfl, rfl, rfl, rfl, rfl, rfl, rfl, rfl⟩

theorem removed_deleteChannel {channelId : String} {s s' : Db} {u : Unit}
    (h : Prog.eval databaseError (deleteChannel channelId) s = .ok (u, s')) :
    Removed (ofChannel channelId s) s s' := by
  simp only [deleteChannel, Prog.eval_bind_eq_ok, Prog.eval_lift_eq_ok, Prog.eval_beginTx,
    Prog.eval_onTx_eq_ok, Option.some.injEq, Except.ok.injEq, Prod.mk.injEq, Prog.eval_commitTx,
    deleteChannelRow] at h
  obtain ⟨_, _, ⟨_, rfl⟩, _, _, ⟨_, rfl⟩, _, s1, ⟨_, h1⟩, _, s2, ⟨_, h2⟩, _, s3, ⟨_, h3⟩, _, s4, ⟨_, h4⟩,
    _, s5, ⟨_, h5⟩, _, s6, ⟨_, h6⟩, deleted, s7, hlast, _, _, ⟨_, rfl⟩, _, rfl⟩ := h
  have hr1 : s1.requests = s.requests := by rw [← h1]
  have hr2 : s2.requests = s.requests := by rw [← h2]; exact hr1
  have hr3 : s3.requests = s.requests := by rw [← h3]; exact hr2
  have hof1 : ofChannel channelId s1 = ofChannel channelId s := by unfold ofChannel; rw [hr1]
  have hof2 : ofChannel channelId s2 = ofChannel channelId s := by unfold ofChannel; rw [hr2]
  have hgone : (fun id => (s3.requests.get? id).any (inChannel channelId)) =
      ofChannel channelId s := by
    rw [hr3]
    rfl
  have hlast : s7 = { s6 with channels := s7.channels } := by
    split at hlast
    · cases hlast
    · cases hlast
      rfl
  have h7 : Removed (ofChannel channelId s) s3 s7 := by
    have := removed_deleteRequests s3 (inChannel channelId)
    rw [hgone, h4] at this
    rw [hlast, ← h6, ← h5]
    exact ⟨this.requests, this.recipients, this.options, this.userDecisions, this.users, this.devices,
      this.nonces, this.node, this.eventSeq, this.events, this.callbacks⟩
  have hdecisions : s3.userDecisions.rows =
      s.userDecisions.rows.filter fun r => !ofChannel channelId s r.requestId := by
    rw [← h3, ← h2, ← h1]
    rfl
  have hrecipients : s3.recipients.rows =
      s.recipients.rows.filter fun r => !ofChannel channelId s r.requestId := by
    rw [← hof1, ← h3, ← h2, ← h1]
    rfl
  have hoptions : s3.options.rows =
      s.options.rows.filter fun r => !ofChannel channelId s r.requestId := by
    rw [← hof2, ← h3, ← h2, ← h1]
    rfl
  have hrest : s3 = { s with
      userDecisions := s3.userDecisions, recipients := s3.recipients, options := s3.options } := by
    rw [← h3, ← h2, ← h1]
  refine ⟨fun id => by rw [h7.requests, hr3], ?_, ?_, ?_, ?_, ?_, ?_, ?_, ?_, ?_, ?_⟩
  · rw [h7.recipients, hrecipients, List.filter_filter]
    simp only [Bool.and_self]
  · rw [h7.options, hoptions, List.filter_filter]
    simp only [Bool.and_self]
  · rw [h7.userDecisions, hdecisions, List.filter_filter]
    simp only [Bool.and_self]
  · rw [h7.users, hrest]
  · rw [h7.devices, hrest]
  · rw [h7.nonces, hrest]
  · rw [h7.node, hrest]
  · rw [h7.eventSeq, hrest]
  · rw [h7.events, hrest]
  · rw [h7.callbacks, hrest]

end Nod.Server
