import Nod.Server.References

/-
  What a call adds to the three queues: the events the publishers work on, the callbacks and the
  push jobs. Rows come in unclaimed, an answer's callback together with its event, a request's jobs
  with the request; a job goes only with its request.
  Proved: `fed_call`, for every call in a well-formed state.
-/

namespace Nod.Server

open Lib Nod.Proto

variable {P : Packages}

/-! ## Rows as they come in -/

/-- The text of a clock reading. -/
def Reads (envs : List Env) (text : String) : Prop := ∃ env ∈ envs, ∃ k, text = env.nowString k

theorem reads_singleton (env : Env) (k : Nat) : Reads [env] (env.nowString k) :=
  ⟨env, List.mem_singleton.mpr rfl, k, rfl⟩

structure NewEvent (envs : List Env) (e : EventRow) : Prop where
  unpublished : e.publishedAt = none
  attempts : e.attempts = 0
  leaseToken : e.leaseToken = none
  leaseUntil : e.leaseUntil = none
  nextAttemptAt : Reads envs e.nextAttemptAt

/-- The delivery of an event. -/
structure NewCallback (envs : List Env) (e : EventRow) (c : CallbackRow) : Prop where
  eventId : c.eventId = e.eventId
  requestId : c.requestId = e.requestId
  revision : c.requestRevision = e.revision
  state : c.state = "queued"
  attempts : c.attempts = 0
  leaseToken : c.leaseToken = none
  leaseUntil : c.leaseUntil = none
  nextAttemptAt : Reads envs c.nextAttemptAt

/-- Events come in together with the callbacks they owe. -/
structure Logs (envs : List Env) (s s' : Db) (added : List EventRow) (owed : List CallbackRow) :
    Prop where
  events : s'.events.rows = s.events.rows ++ added
  callbacks : s'.callbacks.rows = s.callbacks.rows ++ owed
  new : ∀ e ∈ added, NewEvent envs e
  paired : ∀ c ∈ owed, ∃ e ∈ added, NewCallback envs e c

/-- Jobs come in with their request and go with it; the others stand. -/
structure Jobs (s s' : Db) : Prop where
  kept : ∀ k r, s.pushDeliveries.get? k = some r →
    s'.pushDeliveries.get? k = some r ∨
      (s'.pushDeliveries.get? k = none ∧ s'.requests.get? k.1 = none)
  new : ∀ k r, s'.pushDeliveries.get? k = some r →
    s.pushDeliveries.get? k = some r ∨
      (QueuedJob k.1 r ∧ s.eventsOf k.1 = [] ∧ s'.eventsOf k.1 ≠ [])

/-- What a call does to the queues. -/
structure Fed (envs : List Env) (s s' : Db) : Prop where
  logs : ∃ events callbacks, Logs envs s s' events callbacks
  jobs : Jobs s s'

theorem logs_refl {envs : List Env} {s s' : Db} (hevents : s'.events = s.events)
    (hcallbacks : s'.callbacks = s.callbacks) : Logs envs s s' [] [] := by
  refine ⟨?_, ?_, fun _ h => absurd h List.not_mem_nil, fun _ h => absurd h List.not_mem_nil⟩
  · rw [hevents, List.append_nil]
  · rw [hcallbacks, List.append_nil]

theorem Logs.append {envs : List Env} {a b c : Db} {events events' : List EventRow}
    {callbacks callbacks' : List CallbackRow} (h : Logs envs a b events callbacks)
    (k : Logs envs b c events' callbacks') :
    Logs envs a c (events ++ events') (callbacks ++ callbacks') := by
  refine ⟨?_, ?_, fun e he => ?_, fun d hd => ?_⟩
  · rw [k.events, h.events, List.append_assoc]
  · rw [k.callbacks, h.callbacks, List.append_assoc]
  · rcases List.mem_append.mp he with he | he
    · exact h.new e he
    · exact k.new e he
  · rcases List.mem_append.mp hd with hd | hd
    · obtain ⟨e, he, hnew⟩ := h.paired d hd
      exact ⟨e, List.mem_append_left _ he, hnew⟩
    · obtain ⟨e, he, hnew⟩ := k.paired d hd
      exact ⟨e, List.mem_append_right _ he, hnew⟩

theorem jobs_of_eq {s s' : Db} (h : s'.pushDeliveries = s.pushDeliveries) : Jobs s s' := by
  refine ⟨fun k r hr => Or.inl ?_, fun k r hr => Or.inl ?_⟩
  · rw [h]
    exact hr
  · rw [← h]
    exact hr

theorem fed_refl (envs : List Env) (s : Db) : Fed envs s s := ⟨⟨[], [], logs_refl rfl rfl⟩, jobs_of_eq rfl⟩

/-! ## Appends -/

theorem Appended.logs {envs : List Env} {eventId now kind node : String} {request : DecisionRequest}
    {decision : Option Decision} {s s' : Db} {row : RequestRow} (hnow : Reads envs now)
    (h : Appended eventId now request kind decision s s' row node) :
    ∃ events callbacks, Logs envs s s' events callbacks := by
  refine ⟨_, _, h.events, h.callbacks, fun e he => ?_, fun c hc => ?_⟩
  · rw [List.mem_singleton] at he
    subst he
    exact ⟨rfl, rfl, rfl, rfl, hnow⟩
  · refine ⟨_, List.mem_singleton.mpr rfl, ?_⟩
    obtain ⟨url, rfl⟩ : ∃ url, c = callbackRow eventId now url request (row.revision + 1) := by
      unfold owedCallback at hc
      split at hc
      · exact ⟨_, Option.some.inj (Option.mem_toList.mp hc).symm⟩
      · cases hc
    exact ⟨rfl, rfl, rfl, rfl, rfl, rfl, rfl, hnow⟩

theorem Appended.jobs {eventId now kind node : String} {request : DecisionRequest}
    {decision : Option Decision} {s s' : Db} {row : RequestRow}
    (h : Appended eventId now request kind decision s s' row node) :
    s'.pushDeliveries = s.pushDeliveries := by
  rw [h.rest]

theorem Logs.of_eq {envs : List Env} {s t s' : Db} {events : List EventRow} {callbacks : List CallbackRow}
    (h : Logs envs t s' events callbacks) (hevents : t.events = s.events)
    (hcallbacks : t.callbacks = s.callbacks) : Logs envs s s' events callbacks := by
  refine ⟨?_, ?_, h.new, h.paired⟩
  · rw [← hevents]
    exact h.events
  · rw [← hcallbacks]
    exact h.callbacks

theorem fed_recorded {env : Env} {submission : DecisionSubmission} {s s' : Db}
    {resolved : DecisionRequest}
    (h : Prog.eval databaseError (recordDecision P env submission) s = .ok (resolved, s')) :
    Fed [env] s s' := by
  obtain ⟨request, option, signature, signed, stored, row, node, -, hsigned, hstored, -,
    happended⟩ := recorded_of_eval P h
  have hrest : stored.events = s.events ∧ stored.callbacks = s.callbacks ∧
      stored.pushDeliveries = s.pushDeliveries := by
    rw [hstored.rest, hsigned.rest]
    exact ⟨rfl, rfl, rfl⟩
  obtain ⟨hevents, hcallbacks, hpushes⟩ := hrest
  obtain ⟨events, callbacks, hlogs⟩ := happended.logs (reads_singleton env 3)
  exact ⟨⟨events, callbacks, hlogs.of_eq hevents hcallbacks⟩,
    jobs_of_eq (happended.jobs.trans hpushes)⟩

theorem fed_cancelled {env : Env} {requestId : String} {s s' : Db} {r : DecisionRequest}
    (h : Prog.eval databaseError (cancelRequest P env requestId) s = .ok (r, s')) : Fed [env] s s' := by
  obtain ⟨-, -, happend⟩ := eval_cancelRequest_eq_ok P h
  obtain ⟨row, node, happended⟩ := appended_of_eval happend
  obtain ⟨events, callbacks, hlogs⟩ := happended.logs (reads_singleton env 1)
  exact ⟨⟨events, callbacks, hlogs.of_eq rfl rfl⟩, jobs_of_eq happended.jobs⟩

theorem logs_appendExpired {env : Env} {k : Nat} {ids : List String} {s s' : Db}
    {rs : List DecisionRequest}
    (h : Prog.eval databaseError (appendExpired P env k ids) s = .ok (rs, s')) :
    (∃ events callbacks, Logs [env] s s' events callbacks) ∧ s'.pushDeliveries = s.pushDeliveries := by
  induction ids generalizing k s rs with
  | nil =>
    cases h
    exact ⟨⟨[], [], logs_refl rfl rfl⟩, rfl⟩
  | cons id ids ih =>
    simp only [appendExpired, Prog.eval_bind_eq_ok, eval_getRequestOn_eq_ok, Prog.eval_pure,
      Except.ok.injEq, Prod.mk.injEq] at h
    obtain ⟨request, _, ⟨-, rfl⟩, _, mid, happend, rest, last, hrest, rfl, rfl⟩ := h
    obtain ⟨row, node, happended⟩ := appended_of_eval happend
    obtain ⟨events, callbacks, hfirst⟩ := happended.logs (reads_singleton env (k + 1))
    obtain ⟨⟨events', callbacks', hlater⟩, hpushes⟩ := ih hrest
    exact ⟨⟨_, _, hfirst.append hlater⟩, hpushes.trans happended.jobs⟩

theorem fed_swept {env : Env} {s s' : Db} {rs : List DecisionRequest}
    (h : Prog.eval databaseError (expireDueRequests P env) s = .ok (rs, s')) : Fed [env] s s' := by
  obtain ⟨ids, -, happend⟩ := eval_expireDueRequests_eq_ok P h
  obtain ⟨⟨events, callbacks, hlogs⟩, hpushes⟩ := logs_appendExpired happend
  exact ⟨⟨events, callbacks, hlogs.of_eq rfl rfl⟩, jobs_of_eq hpushes⟩

/-! ## Creates -/

theorem fed_joined {envs : List Env} {s s' : Db} {created : CreatedDecisionRequest}
    (h : Joined P s s' created) : Fed envs s s' := by
  obtain ⟨idempotency, rfl⟩ := h.rest
  exact ⟨⟨[], [], logs_refl rfl rfl⟩, jobs_of_eq rfl⟩

/-- Jobs of a request nobody has heard of come in at the end of the table. -/
theorem jobs_created {env : Env} {req : CreateDecisionRequest} {metadata : CreateRequestMetadata}
    {s s' : Db} {request : DecisionRequest} {recipients : List String} {node : String}
    (hs : WellFormed P s) (h : Created P env req metadata s s' request recipients node) :
    Jobs s s' := by
  obtain ⟨jobs, hrows, hjobs⟩ := h.pushes
  refine ⟨fun k r hr => Or.inl ?_, fun k r hr => ?_⟩
  · obtain ⟨hmem, hkey⟩ := Table.get?_eq_some.mp hr
    refine Table.get?_eq_some.mpr ⟨?_, hkey⟩
    rw [hrows]
    exact List.mem_append_left _ hmem
  · obtain ⟨hmem, hkey⟩ := Table.get?_eq_some.mp hr
    rw [hrows] at hmem
    rcases List.mem_append.mp hmem with hmem | hmem
    · exact Or.inl (Table.get?_eq_some.mpr ⟨hmem, hkey⟩)
    · have hjob := hjobs r hmem
      have hid : k.1 = env.newId 0 := by
        rw [← hkey]
        exact hjob.requestId
      rw [hid]
      refine Or.inr ⟨hjob, ?_, ?_⟩
      · have hnone : (s.track (env.newId 0)).entries = [] := by
          refine (hs.polls (env.newId 0)).entries_eq_nil (rules P) fun e he => ?_
          obtain ⟨event, hevent, rfl⟩ := List.mem_map.mp he
          obtain ⟨hstored, hreq⟩ := List.mem_filter.mp hevent
          exact h.unused event hstored (of_decide_eq_true hreq)
        exact List.map_eq_nil_iff.mp hnone
      · intro hnil
        have hentries := h.eventsOf (env.newId 0)
        rw [if_pos rfl, hnil] at hentries
        exact List.append_ne_nil_of_right_ne_nil _ (List.cons_ne_nil _ _) hentries.symm

theorem fed_created {env : Env} {req : CreateDecisionRequest} {metadata : CreateRequestMetadata}
    {s s' : Db} {created : CreatedDecisionRequest} (hs : WellFormed P s)
    (h : Prog.eval databaseError (createRequest P env req metadata) s = .ok (created, s')) :
    Fed [env] s s' := by
  rcases created_of_eval P h with hjoined | ⟨-, -, recipients, node, hcreated⟩
  · exact fed_joined hjoined
  · obtain ⟨origin, hevents⟩ := hcreated.event
    have hcallbacks : s'.callbacks = s.callbacks := by rw [hcreated.rest]
    refine ⟨⟨_, [], hevents, ?_, fun e he => ?_, fun _ hc => absurd hc List.not_mem_nil⟩,
      jobs_created hs hcreated⟩
    · rw [hcallbacks, List.append_nil]
    · rw [List.mem_singleton.mp he]
      exact ⟨rfl, rfl, rfl, rfl, reads_singleton env 1⟩

/-! ## Deletes -/

theorem jobs_removed {gone : String → Bool} {s s' : Db} (h : Removed gone s s')
    (hpushes : s'.pushDeliveries = s.pushDeliveries.delete fun r => gone r.requestId) :
    Jobs s s' := by
  have hget : ∀ k, s'.pushDeliveries.get? k =
      (s.pushDeliveries.get? k).filter fun r => !gone r.requestId := fun k => by
    rw [hpushes, Table.get?_delete]
  refine ⟨fun k r hr => ?_, fun k r hr => Or.inl ?_⟩
  · have hid : r.requestId = k.1 := congrArg Prod.fst (Table.key_of_get? hr)
    rw [hget, hr, Option.filter_some, hid, h.requests]
    cases gone k.1 with
    | false => exact Or.inl rfl
    | true => exact Or.inr ⟨rfl, rfl⟩
  · rw [hget] at hr
    exact (Option.filter_eq_some_iff.mp hr).1

theorem fed_removed {envs : List Env} {gone : String → Bool} {s s' : Db} (h : Removed gone s s')
    (hpushes : s'.pushDeliveries = s.pushDeliveries.delete fun r => gone r.requestId) :
    Fed envs s s' :=
  ⟨⟨[], [], logs_refl h.events h.callbacks⟩, jobs_removed h hpushes⟩

theorem pushes_deleteChannel {channelId : String} {s s' : Db} {u : Unit}
    (h : Prog.eval databaseError (deleteChannel channelId) s = .ok (u, s')) :
    s'.pushDeliveries = s.pushDeliveries.delete fun r => ofChannel channelId s r.requestId := by
  simp only [deleteChannel, Prog.eval_bind_eq_ok, Prog.eval_lift_eq_ok, Prog.eval_beginTx,
    Prog.eval_onTx_eq_ok, Option.some.injEq, Except.ok.injEq, Prod.mk.injEq, Prog.eval_commitTx,
    deleteChannelRow] at h
  obtain ⟨_, _, ⟨_, rfl⟩, _, _, ⟨_, rfl⟩, _, s1, ⟨_, h1⟩, _, s2, ⟨_, h2⟩, _, s3, ⟨_, h3⟩, _, s4, ⟨_, h4⟩,
    _, s5, ⟨_, h5⟩, _, s6, ⟨_, h6⟩, deleted, s7, hlast, _, _, ⟨_, rfl⟩, _, rfl⟩ := h
  split at hlast
  · cases hlast
  · cases hlast
    rw [← h6, ← h5, ← h4, ← h3, ← h2, ← h1]
    rfl

/-! ## Every call -/

/-- What a call reads from outside, when it can add to the queues. -/
def Call.env (c : Call) : Option Env :=
  match c.op with
  | .createRequest env _ _ => some env
  | .recordDecision env _ => some env
  | .cancelRequest env _ => some env
  | .expireDueRequests env => some env
  | _ => none

theorem fed_transactional {α : Type} {p : Sql α} (hp : Prog.Transactional p) {envs : List Env}
    {s : Db} (hok : ∀ a s', Prog.eval databaseError p s = .ok (a, s') → Fed envs s s')
    (faults : List Bool) : Fed envs s (Prog.exec databaseError p faults s).2 :=
  Prog.exec_post (R := fun r => Fed envs s r.2) hp (fun _ => fed_refl envs s) hok faults

theorem fed_call (c : Call) {s : Db} (hs : WellFormed P s) : Fed c.env.toList s (c.after P s) := by
  obtain ⟨op, faults⟩ := c
  unfold Call.after Call.exec
  cases op with
  | createRequest env req metadata =>
    exact fed_transactional (transactional_createRequest P env req metadata)
      (fun _ _ h => fed_created hs h) faults
  | recordDecision env submission =>
    exact fed_transactional (transactional_recordDecision P env submission)
      (fun _ _ h => fed_recorded h) faults
  | bindOrigin principal requestId origin =>
    obtain ⟨origins, h⟩ := (bound_bindOrigin principal requestId origin faults s).rest
    change Fed [] s (Prog.exec databaseError (bindOrigin principal requestId origin) faults s).2
    rw [h]
    exact ⟨⟨[], [], logs_refl rfl rfl⟩, jobs_of_eq rfl⟩
  | cancelRequest env requestId =>
    exact fed_transactional (transactional_cancelRequest P env requestId)
      (fun _ _ h => fed_cancelled h) faults
  | expireDueRequests env =>
    exact fed_transactional (transactional_expireDueRequests P env)
      (fun _ _ h => fed_swept h) faults
  | deleteChannel channelId =>
    exact fed_transactional (transactional_deleteChannel channelId)
      (fun _ _ h => fed_removed (removed_deleteChannel h) (pushes_deleteChannel h)) faults
  | pruneRetention env retentionDays =>
    change Fed [] s (Prog.exec databaseError (pruneRetention env retentionDays) faults s).2
    rcases exec_pruneRetention env retentionDays faults s with he | ⟨p, hp⟩
    · rw [he]
      exact fed_refl [] s
    · rw [hp]
      exact fed_removed (removed_deleteRequests s p) rfl
  | admin op =>
    have hquiet := quiet_admin P op faults s
    exact ⟨⟨[], [], logs_refl hquiet.events hquiet.callbacks⟩, jobs_of_eq hquiet.pushDeliveries⟩

end Nod.Server
