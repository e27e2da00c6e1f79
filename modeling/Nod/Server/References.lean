import Nod.Server.CreateCall
import Nod.Server.Journal
import Nod.Server.SigningContext

/-
  Rows that refer to a request, or that a request refers to, from call to call. Only a create adds a
  request or an idempotency key; keys and origins go with their request (`Drops`), and a request
  keeps its channel.
  Proved: `drops_call` for every call but a create; `references_run`, in every state the server
  reaches each request has its channel and each origin its request; `originOf_run` and `node_run`, a
  request keeps an origin it has while it is stored, and the node its id.
-/

namespace Nod.Server

open Lib Nod.Proto

variable {P : Packages}

/-! ## Calls that create nothing -/

/-- Some requests go, each with its keys and its origin. An origin may come to a stored request. -/
structure Drops (gone : String → Bool) (s s' : Db) : Prop where
  stored : ∀ id, s'.requests.get? id ≠ none ↔ s.requests.get? id ≠ none ∧ gone id = false
  idempotency : s'.idempotency = s.idempotency.delete fun r => gone r.requestId
  owned : ∀ o ∈ s'.origins.rows, o ∈ s.origins.rows ∧ gone o.requestId = false ∨
    s'.requests.get? o.requestId ≠ none
  bound : ∀ id o, gone id = false → s.origins.get? id = some o → s'.origins.get? id = some o
  channels : ∀ row ∈ s'.requests.rows, s.channels.get? row.channelId ≠ none →
    s'.channels.get? row.channelId ≠ none
  node : ∀ n, s.integrationMeta.get? "node_id" = some n →
    s'.integrationMeta.get? "node_id" = some n

/-- The same requests are stored. -/
def StoredAlike (s s' : Db) : Prop := ∀ id, s'.requests.get? id ≠ none ↔ s.requests.get? id ≠ none

theorem StoredAlike.trans {s s' s'' : Db} (h : StoredAlike s s') (k : StoredAlike s' s'') :
    StoredAlike s s'' := fun id => (k id).trans (h id)

theorem drops_of_stored {s s' : Db} (hstored : StoredAlike s s')
    (hkeys : s'.idempotency = s.idempotency) (horigins : s'.origins = s.origins)
    (hchannels : ∀ id, s.channels.get? id ≠ none → s'.channels.get? id ≠ none)
    (hnode : ∀ n, s.integrationMeta.get? "node_id" = some n →
      s'.integrationMeta.get? "node_id" = some n) :
    Drops (fun _ => false) s s' := by
  refine ⟨fun id => ?_, ?_, fun o ho => ?_, fun id o _ hget => ?_, fun row _ =>
    hchannels row.channelId, hnode⟩
  · rw [hstored id]
    exact (and_iff_left rfl).symm
  · rw [hkeys, Table.delete_false]
  · rw [horigins] at ho
    exact Or.inl ⟨ho, rfl⟩
  · rw [horigins]
    exact hget

/-- Nothing but rows of requests, answers and the journal has changed. -/
structure Untouched (s s' : Db) : Prop where
  idempotency : s'.idempotency = s.idempotency
  origins : s'.origins = s.origins
  channels : s'.channels = s.channels
  node : s'.integrationMeta = s.integrationMeta

theorem Untouched.trans {s s' s'' : Db} (h : Untouched s s') (k : Untouched s' s'') :
    Untouched s s'' :=
  ⟨k.idempotency.trans h.idempotency, k.origins.trans h.origins, k.channels.trans h.channels,
    k.node.trans h.node⟩

theorem Untouched.drops {s s' : Db} (h : Untouched s s') (hstored : StoredAlike s s') :
    Drops (fun _ => false) s s' := by
  refine drops_of_stored hstored h.idempotency h.origins (fun id hid => ?_) fun n hn => ?_
  · rw [h.channels]
    exact hid
  · rw [h.node]
    exact hn

theorem drops_bound {s s' : Db} (h : Bound s s') : Drops (fun _ => false) s s' := by
  obtain ⟨origins, rfl⟩ := h.rest
  refine ⟨fun id => (and_iff_left rfl).symm, (Table.delete_false _).symm, fun o ho => ?_,
    fun id o _ hget => h.kept id o hget, fun row _ hchannel => hchannel, fun n hn => hn⟩
  exact (h.owned o ho).imp_left fun hold => ⟨hold, rfl⟩

theorem drops_refl (s : Db) : Drops (fun _ => false) s s :=
  drops_of_stored (fun _ => Iff.rfl) rfl rfl (fun _ h => h) fun _ h => h

theorem drops_removed {gone : String → Bool} {s s' : Db} (h : Removed gone s s')
    (hkeys : s'.idempotency = s.idempotency.delete fun r => gone r.requestId)
    (horigins : s'.origins = s.origins.delete fun r => gone r.requestId)
    (hchannels : ∀ row ∈ s'.requests.rows, s.channels.get? row.channelId ≠ none →
      s'.channels.get? row.channelId ≠ none) : Drops gone s s' := by
  refine ⟨fun id => ?_, hkeys, fun o ho => ?_, fun id o hstays hget => ?_, hchannels, fun n hn => ?_⟩
  · rw [h.requests]
    cases gone id with
    | false => exact (and_iff_left rfl).symm
    | true =>
      constructor
      · intro hid
        exact absurd rfl hid
      · rintro ⟨-, hfalse⟩
        cases hfalse
  · rw [horigins, Table.rows_delete, List.mem_filter, Bool.not_eq_true'] at ho
    exact Or.inl ho
  · have hid : o.requestId = id := Table.key_of_get? hget
    rw [horigins, Table.get?_delete, hget, Option.filter_some, hid, hstays]
    rfl
  · rw [h.node]
    exact hn

theorem storedAlike_update (s : Db) (p : RequestRow → Bool) (f : RequestRow → RequestRow)
    (hf : ∀ r, (f r).id = r.id) :
    StoredAlike s { s with requests := s.requests.update p f hf } := by
  intro id
  change (s.requests.update p f hf).get? id ≠ none ↔ _
  exact Table.get?_update_ne_none

theorem Appended.storedAlike {eventId now kind node : String} {request : DecisionRequest}
    {decision : Option Decision} {s s' : Db} {row : RequestRow}
    (h : Appended eventId now request kind decision s s' row node) : StoredAlike s s' := by
  intro id
  rw [h.requests]
  exact Table.get?_update_ne_none

theorem Stored.storedAlike {id at_ : String} {actorUserId : Option String} {decision : Decision}
    {s s' : Db} {resolution : DecisionResolution}
    (h : Stored id actorUserId decision at_ s resolution s') : StoredAlike s s' := by
  cases h with
  | shared _ =>
    exact storedAlike_update s (isPendingRow id) (resolvedRow (some decision) at_) fun _ => rfl
  | user userId userDecisions _ _ _ _ =>
    unfold userAnswered
    dsimp only
    split
    · exact storedAlike_update s (isPendingRow id) (resolvedRow none at_) fun _ => rfl
    · exact storedAlike_update s (fun r => r.id = id) (fun r => { r with updatedAt := at_ })
        fun _ => rfl

theorem drops_recorded {env : Env} {submission : DecisionSubmission} {s s' : Db}
    {resolved : DecisionRequest}
    (h : Prog.eval databaseError (recordDecision P env submission) s = .ok (resolved, s')) :
    Drops (fun _ => false) s s' := by
  obtain ⟨request, option, signature, signed, stored, row, node, -, hsigned, hstored, -,
    happended⟩ := recorded_of_eval P h
  have hnonces : StoredAlike s signed := by
    rw [hsigned.rest]
    exact fun _ => Iff.rfl
  have hstoredAlike := (hnonces.trans hstored.storedAlike).trans happended.storedAlike
  have hrest : Untouched s s' := by
    rw [happended.rest, hstored.rest, hsigned.rest]
    exact ⟨rfl, rfl, rfl, rfl⟩
  exact hrest.drops hstoredAlike

theorem drops_cancelled {env : Env} {requestId : String} {s s' : Db} {r : DecisionRequest}
    (h : Prog.eval databaseError (cancelRequest P env requestId) s = .ok (r, s')) :
    Drops (fun _ => false) s s' := by
  obtain ⟨-, -, happend⟩ := eval_cancelRequest_eq_ok P h
  obtain ⟨row, node, happended⟩ := appended_of_eval happend
  have hcancelled := storedAlike_update s (isPendingRow requestId) (cancelledRow (env.nowString 0))
    fun _ => rfl
  have hrest : Untouched s s' := by
    rw [happended.rest]
    exact ⟨rfl, rfl, rfl, rfl⟩
  exact hrest.drops (hcancelled.trans happended.storedAlike)

/-- The appends of a sweep. -/
theorem rest_of_appendExpired {env : Env} {k : Nat} {ids : List String} {s s' : Db}
    {rs : List DecisionRequest}
    (h : Prog.eval databaseError (appendExpired P env k ids) s = .ok (rs, s')) :
    StoredAlike s s' ∧ Untouched s s' := by
  induction ids generalizing k s rs with
  | nil =>
    cases h
    exact ⟨fun _ => Iff.rfl, rfl, rfl, rfl, rfl⟩
  | cons id ids ih =>
    simp only [appendExpired, Prog.eval_bind_eq_ok, eval_getRequestOn_eq_ok, Prog.eval_pure,
      Except.ok.injEq, Prod.mk.injEq] at h
    obtain ⟨request, _, ⟨-, rfl⟩, _, mid, happend, rest, last, hrest, rfl, rfl⟩ := h
    obtain ⟨row, node, happended⟩ := appended_of_eval happend
    obtain ⟨hstored, huntouched⟩ := ih hrest
    refine ⟨happended.storedAlike.trans hstored, Untouched.trans ?_ huntouched⟩
    rw [happended.rest]
    exact ⟨rfl, rfl, rfl, rfl⟩

theorem drops_swept {env : Env} {s s' : Db} {rs : List DecisionRequest}
    (h : Prog.eval databaseError (expireDueRequests P env) s = .ok (rs, s')) :
    Drops (fun _ => false) s s' := by
  obtain ⟨ids, -, happend⟩ := eval_expireDueRequests_eq_ok P h
  obtain ⟨hstored, huntouched⟩ := rest_of_appendExpired happend
  have hswept := storedAlike_update s (isDueRow (env.nowString 0)) (expiredRow (env.nowString 0))
    fun _ => rfl
  have hrest : Untouched s (swept (env.nowString 0) s) := ⟨rfl, rfl, rfl, rfl⟩
  exact (hrest.trans huntouched).drops (hswept.trans hstored)

/-- A channel goes only when no request of it is left. -/
theorem drops_deleteChannel {channelId : String} {s s' : Db} {u : Unit}
    (h : Prog.eval databaseError (deleteChannel channelId) s = .ok (u, s')) :
    Drops (ofChannel channelId s) s s' := by
  have hremoved := removed_deleteChannel h
  simp only [deleteChannel, Prog.eval_bind_eq_ok, Prog.eval_lift_eq_ok, Prog.eval_beginTx,
    Prog.eval_onTx_eq_ok, Option.some.injEq, Except.ok.injEq, Prod.mk.injEq, Prog.eval_commitTx,
    deleteChannelRow] at h
  obtain ⟨_, _, ⟨_, rfl⟩, _, _, ⟨_, rfl⟩, _, s1, ⟨_, h1⟩, _, s2, ⟨_, h2⟩, _, s3, ⟨_, h3⟩, _, s4, ⟨_, h4⟩,
    _, s5, ⟨_, h5⟩, _, s6, ⟨_, h6⟩, deleted, s7, hlast, _, _, ⟨_, rfl⟩, _, rfl⟩ := h
  have hbefore : s6.channels = s.channels := by
    rw [← h6, ← h5, ← h4, ← h3, ← h2, ← h1]
    rfl
  split at hlast
  · cases hlast
  · rename_i hempty
    cases hlast
    refine drops_removed hremoved ?_ ?_ fun row hrow hchannel => ?_
    · rw [← h6, ← h5, ← h4, ← h3, ← h2, ← h1]
      rfl
    · rw [← h6, ← h5, ← h4, ← h3, ← h2, ← h1]
      rfl
    · have hother : row.channelId ≠ channelId := fun heq => hempty ⟨row, hrow, heq⟩
      obtain ⟨channel, hget⟩ := Option.ne_none_iff_exists'.mp hchannel
      have hid : channel.id = row.channelId := Table.key_of_get? hget
      change (s6.channels.delete fun c => c.id = channelId).get? row.channelId ≠ none
      rw [hbefore, Table.get?_delete, hget, Option.filter_some, if_pos]
      · exact Option.some_ne_none channel
      · rw [hid, decide_eq_false hother]
        rfl

theorem drops_transactional {α : Type} {p : Sql α} (hp : Prog.Transactional p) {s : Db}
    (hok : ∀ a s', Prog.eval databaseError p s = .ok (a, s') → ∃ gone, Drops gone s s')
    (faults : List Bool) : ∃ gone, Drops gone s (Prog.exec databaseError p faults s).2 :=
  Prog.exec_post (R := fun r => ∃ gone, Drops gone s r.2) hp (fun _ => ⟨_, drops_refl s⟩) hok faults

/-- A call that is not a create adds no request or key. -/
theorem drops_call (c : Call) (hc : ∀ create : CreateCall, c ≠ create.toCall) {s : Db}
    (hs : WellFormed P s) : ∃ gone, Drops gone s (c.after P s) := by
  obtain ⟨op, faults⟩ := c
  unfold Call.after Call.exec
  cases op with
  | createRequest env req metadata => exact absurd rfl (hc ⟨env, req, metadata, faults⟩)
  | recordDecision env submission =>
    exact drops_transactional (transactional_recordDecision P env submission)
      (fun _ _ h => ⟨_, drops_recorded h⟩) faults
  | bindOrigin principal requestId origin =>
    exact ⟨_, drops_bound (bound_bindOrigin principal requestId origin faults s)⟩
  | cancelRequest env requestId =>
    exact drops_transactional (transactional_cancelRequest P env requestId)
      (fun _ _ h => ⟨_, drops_cancelled h⟩) faults
  | expireDueRequests env =>
    exact drops_transactional (transactional_expireDueRequests P env)
      (fun _ _ h => ⟨_, drops_swept h⟩) faults
  | deleteChannel channelId =>
    exact drops_transactional (transactional_deleteChannel channelId)
      (fun _ _ h => ⟨_, drops_deleteChannel h⟩) faults
  | pruneRetention env retentionDays =>
    change ∃ gone, Drops gone s (Prog.exec databaseError (pruneRetention env retentionDays)
      faults s).2
    rcases exec_pruneRetention env retentionDays faults s with he | ⟨p, hp⟩
    · rw [he]
      exact ⟨_, drops_refl s⟩
    · rw [hp]
      exact ⟨_, drops_removed (removed_deleteRequests s p) rfl rfl fun _ _ h => h⟩
  | admin op =>
    have hquiet := quiet_admin P op faults s
    have hrequests := hquiet.requests hs.salted
    refine ⟨_, drops_of_stored (fun id => ?_) hquiet.idempotency hquiet.origins hquiet.channels
      hquiet.node⟩
    change (Prog.exec databaseError (op.prog P) faults s).2.requests.get? id ≠ none ↔ _
    rw [hrequests]

/-! ## References -/

/-- Each request has its channel and each origin its request. -/
structure References (s : Db) : Prop where
  channels : ∀ row ∈ s.requests.rows, s.channels.get? row.channelId ≠ none
  origins : ∀ o ∈ s.origins.rows, s.requests.get? o.requestId ≠ none

/-- A request that is stored before and after some calls keeps the columns its create fixed. -/
theorem frozen_run (calls : List Call) {s : Db} (hs : WellFormed P s) {id : String}
    {row row' : RequestRow} (hrow : s.requests.get? id = some row)
    (hrow' : (run P calls s).requests.get? id = some row') : row'.frozen = row.frozen := by
  have hstored : (run P calls s).requests.get? id ≠ none := by
    rw [hrow']
    exact Option.some_ne_none row'
  have hcarries := carries_run hs (c := s.contentOf row) ⟨row, hrow, rfl⟩ calls hstored
  exact (hcarries.of hrow').1

theorem references_drops (c : Call) {gone : String → Bool} {s : Db} (hs : WellFormed P s)
    (hr : References s) (h : Drops gone s (c.after P s)) : References (c.after P s) := by
  refine ⟨fun row' hrow' => ?_, fun o ho => ?_⟩
  · have hget' := Table.get?_of_mem hrow'
    have hstored : (c.after P s).requests.get? row'.id ≠ none := by
      rw [hget']
      exact Option.some_ne_none row'
    obtain ⟨row, hrow⟩ := Option.ne_none_iff_exists'.mp ((h.stored row'.id).mp hstored).1
    have hfrozen := frozen_run [c] hs hrow hget'
    have hchannel : row'.channelId = row.channelId := by
      have hsame := congrArg RequestRow.channelId hfrozen
      exact hsame
    refine h.channels row' hrow' ?_
    rw [hchannel]
    exact hr.channels row (Table.mem_of_get? hrow)
  · obtain ⟨hold, hstays⟩ | hstored := h.owned o ho
    · exact (h.stored o.requestId).mpr ⟨hr.origins o hold, hstays⟩
    · exact hstored

section

variable {env : Env} {req : CreateDecisionRequest} {metadata : CreateRequestMetadata}
  {s s' : Db} {created : CreatedDecisionRequest} {request : DecisionRequest}
  {recipients : List String} {node : String}

/-- A new request is made in a channel that exists. -/
theorem channel_of_eval (hdeduped : created.deduped = false)
    (h : Prog.eval databaseError (createRequest P env req metadata) s = .ok (created, s')) :
    s.channels.get? req.channelId ≠ none := by
  obtain ⟨fingerprint, hpasses⟩ := passes_of_eval h
  rw [eval_createRequest hpasses] at h
  cases hbound : boundTo req metadata s with
  | none =>
    rw [hbound] at h
    exact (eval_createInChannel_eq_ok.mp h).1
  | some row =>
    rw [hbound] at h
    have hjoined := joined_of_replayCreate P h
    rw [hjoined.deduped] at hdeduped
    cases hdeduped

theorem originOf_created (hr : References s)
    (h : Created P env req metadata s s' request recipients node) (id : String) :
    s'.originOf id = if env.newId 0 = id then metadata.origin else s.originOf id := by
  have hfree : s.origins.get? (env.newId 0) = none := by
    cases hget : s.origins.get? (env.newId 0) with
    | none => rfl
    | some o =>
      have hstored := hr.origins o (Table.mem_of_get? hget)
      have hid : o.requestId = env.newId 0 := Table.key_of_get? hget
      rw [hid, h.fresh] at hstored
      exact absurd rfl hstored
  have hrows := h.originRows
  unfold Db.originOf
  cases horigin : metadata.origin with
  | none =>
    rw [horigin] at hrows
    have hsame : s'.origins = s.origins := Table.ext (hrows.trans (List.append_nil _))
    rw [hsame]
    split
    · rename_i hid
      rw [← hid, hfree]
      rfl
    · rfl
  | some origin =>
    rw [horigin] at hrows
    have hinsert : s.origins.insert? ⟨env.newId 0, origin⟩ = some s'.origins :=
      Table.insert?_eq_some.mpr ⟨hfree, hrows⟩
    rw [Table.get?_insert? hinsert]
    change (if env.newId 0 = id then some _ else _).map _ = _
    split
    · rfl
    · rfl

theorem references_create (hr : References s)
    (h : Prog.eval databaseError (createRequest P env req metadata) s = .ok (created, s')) :
    References s' := by
  rcases created_of_eval P h with hjoined | ⟨hdeduped, -, recipients, node, hcreated⟩
  · obtain ⟨idempotency, rfl⟩ := hjoined.rest
    exact ⟨hr.channels, hr.origins⟩
  · have hchannels : s'.channels = s.channels := by rw [hcreated.rest]
    refine ⟨fun row hrow => ?_, fun o ho => ?_⟩
    · rw [hchannels]
      rw [hcreated.requestRows, List.mem_append, List.mem_singleton] at hrow
      rcases hrow with hrow | rfl
      · exact hr.channels row hrow
      · exact channel_of_eval hdeduped h
    · rw [hcreated.get?]
      split
      · exact Option.some_ne_none _
      · rename_i hother
        rw [hcreated.originRows, List.mem_append] at ho
        rcases ho with ho | ho
        · exact hr.origins o ho
        · obtain ⟨origin, -, rfl⟩ := Option.map_eq_some_iff.mp (Option.mem_toList.mp ho)
          exact absurd rfl hother

end

theorem references_call (c : Call) {s : Db} (hs : WellFormed P s) (hr : References s) :
    References (c.after P s) := by
  by_cases hc : ∃ create : CreateCall, c = create.toCall
  · obtain ⟨create, rfl⟩ := hc
    exact Prog.exec_post (R := fun r => References r.2)
      (transactional_createRequest P create.env create.req create.metadata) (fun _ => hr)
      (fun _ _ h => references_create hr h) create.faults
  · obtain ⟨gone, hdrops⟩ := drops_call c (fun create heq => hc ⟨create, heq⟩) hs
    exact references_drops c hs hr hdrops

theorem references_run (calls : List Call) {s : Db} (hs : WellFormed P s) (hr : References s) :
    References (run P calls s) := by
  induction calls generalizing s with
  | nil => exact hr
  | cons c calls ih => exact ih ((moves_call c hs).wellFormed hs) (references_call c hs hr)

theorem references_run_empty (calls : List Call) : References (run P calls Db.empty) :=
  references_run calls (wellFormed_empty P)
    ⟨fun _ h => absurd h List.not_mem_nil, fun _ h => absurd h List.not_mem_nil⟩

/-! ## Origins stand -/

theorem originOf_drops {gone : String → Bool} {s s' : Db} (h : Drops gone s s') {id : String}
    {origin : Origin} (hstored : s'.requests.get? id ≠ none) (ho : s.originOf id = some origin) :
    s'.originOf id = some origin := by
  obtain ⟨o, hget, horigin⟩ := Option.map_eq_some_iff.mp ho
  refine Option.map_eq_some_iff.mpr ⟨o, ?_, horigin⟩
  exact h.bound id o ((h.stored id).mp hstored).2 hget

theorem originOf_call (c : Call) {s : Db} (hs : WellFormed P s) (hr : References s) {id : String}
    {origin : Origin} (hstored : s.requests.get? id ≠ none)
    (hstored' : (c.after P s).requests.get? id ≠ none) (ho : s.originOf id = some origin) :
    (c.after P s).originOf id = some origin := by
  by_cases hc : ∃ create : CreateCall, c = create.toCall
  · obtain ⟨create, rfl⟩ := hc
    refine Prog.exec_post (R := fun r => r.2.originOf id = some origin)
      (transactional_createRequest P create.env create.req create.metadata) (fun _ => ho)
      (fun created s' h => ?_) create.faults
    rcases created_of_eval P h with hjoined | ⟨-, -, recipients, node, hcreated⟩
    · obtain ⟨idempotency, rfl⟩ := hjoined.rest
      exact ho
    · rw [originOf_created hr hcreated, if_neg, ho]
      rintro rfl
      exact hstored hcreated.fresh
  · obtain ⟨gone, hdrops⟩ := drops_call c (fun create heq => hc ⟨create, heq⟩) hs
    exact originOf_drops hdrops hstored' ho

/-- A request that is stored after a call and some more was stored in between. -/
theorem stored_of_run {s : Db} (hs : WellFormed P s) (c : Call) (calls : List Call) {id : String}
    (h : s.requests.get? id ≠ none) (hend : (run P (c :: calls) s).requests.get? id ≠ none) :
    (c.after P s).requests.get? id ≠ none := by
  intro hgone
  obtain ⟨row, hrow⟩ := Option.ne_none_iff_exists'.mp h
  have hmoves := moves_call c hs
  have hone : Poll.Run (rules P) (s.track id) ((c.after P s).track id) := .single (hmoves.steps id)
  rcases Poll.frozen_of_run (rules P) (hs.polls id) (ballot_of_get? hrow) hone with
    ⟨hnone, hseen, -⟩ | ⟨b, hb, -, -⟩
  · have hs' := hmoves.wellFormed hs
    have hlast := Poll.gone_of_run (rules P) (hs'.polls id) hnone hseen (pollRun_run calls hs' id)
    obtain ⟨row', hrow'⟩ := Option.ne_none_iff_exists'.mp hend
    have hballot := ballot_of_get? hrow'
    rw [run_cons, hlast, hnone] at hballot
    cases hballot
  · rw [ballot_of_get?_none hgone] at hb
    cases hb

/-- An origin that is bound stays bound; one may still be bound to a request that has none. -/
theorem originOf_run (calls : List Call) {s : Db} (hs : WellFormed P s) (hr : References s)
    {id : String} {origin : Origin} (hstored : s.requests.get? id ≠ none)
    (hend : (run P calls s).requests.get? id ≠ none) (ho : s.originOf id = some origin) :
    (run P calls s).originOf id = some origin := by
  induction calls generalizing s with
  | nil => exact ho
  | cons c calls ih =>
    have hnext := stored_of_run hs c calls hstored hend
    exact ih ((moves_call c hs).wellFormed hs) (references_call c hs hr) hnext hend
      (originOf_call c hs hr hstored hnext ho)

/-! ## The node id stands -/

theorem node_call (c : Call) {s : Db} (hs : WellFormed P s) {n : String × String}
    (hn : s.integrationMeta.get? "node_id" = some n) :
    (c.after P s).integrationMeta.get? "node_id" = some n := by
  by_cases hc : ∃ create : CreateCall, c = create.toCall
  · obtain ⟨create, rfl⟩ := hc
    refine Prog.exec_post (R := fun r => r.2.integrationMeta.get? "node_id" = some n)
      (transactional_createRequest P create.env create.req create.metadata) (fun _ => hn)
      (fun created s' h => ?_) create.faults
    rcases created_of_eval P h with hjoined | ⟨-, -, recipients, node, hcreated⟩
    · obtain ⟨idempotency, rfl⟩ := hjoined.rest
      exact hn
    · rw [hcreated.rest]
      exact hn
  · obtain ⟨gone, hdrops⟩ := drops_call c (fun create heq => hc ⟨create, heq⟩) hs
    exact hdrops.node n hn

theorem node_run (calls : List Call) {s : Db} (hs : WellFormed P s) {n : String × String}
    (hn : s.integrationMeta.get? "node_id" = some n) :
    (run P calls s).integrationMeta.get? "node_id" = some n := by
  induction calls generalizing s with
  | nil => exact hn
  | cons c calls ih => exact ih ((moves_call c hs).wellFormed hs) (node_call c hs hn)

end Nod.Server
