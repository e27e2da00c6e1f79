import Nod.Server.Acceptance
import Nod.Server.KeysApart
import Nod.Server.References

/-
  Idempotency keys. A key that an accepted create has bound stays bound to the request while that is
  stored, and no call but a create with its slot binds it.
  Proved: `idempotency_keys`, over every run: the first accepted create of a slot makes a request or
  joins a pending one; a create with the slot again returns the same request if its content is equal
  and is refused if it is not, and changes nothing; creates of other slots cannot tell.
-/

namespace Nod.Server

open Lib Nod.Proto

variable {P : Packages}

/-! ## How a create ends -/

/-- The key table after a create: one more row where it has a key. -/
def BindsTo (binding : IdempotencyBinding) (requestId : String)
    (before after : Table IdempotencyRow.index) : Prop :=
  match binding.key with
  | none => after = before
  | some key =>
    before.insert? ⟨binding.scope, binding.channelId, key, binding.fingerprint, requestId⟩ = some after

theorem bindsTo_of_eval {binding : IdempotencyBinding} {requestId : String} {db db' : Db} {u : Unit}
    (h : Prog.eval databaseError (bindIdempotency binding requestId) db = .ok (u, db')) :
    BindsTo binding requestId db.idempotency db'.idempotency ∧
      db' = { db with idempotency := db'.idempotency } := by
  unfold bindIdempotency at h
  unfold BindsTo
  cases hkey : binding.key with
  | none =>
    rw [hkey] at h
    cases h
    exact ⟨rfl, rfl⟩
  | some key =>
    rw [hkey, Prog.eval_onTx_eq_ok, insertIdempotency] at h
    split at h
    · cases h
    · obtain ⟨table, htable, hdb⟩ := Option.map_eq_some_iff.mp h
      cases hdb
      exact ⟨htable, rfl⟩

theorem bindsTo_of_insertNew {env : Env} {req : CreateDecisionRequest}
    {metadata : CreateRequestMetadata} {binding : IdempotencyBinding} {recipients : List String}
    {db db' : Db} {created : CreatedDecisionRequest}
    (h : Prog.eval databaseError (insertNew P env req metadata binding recipients) db =
      .ok (created, db')) : BindsTo binding (env.newId 0) db.idempotency db'.idempotency := by
  simp only [insertNew, Prog.eval_bind_eq_ok, Prog.eval_onTx_eq_ok, eval_getRequestOn_eq_ok,
    Prog.eval_commitTx, Prog.eval_pure, Except.ok.injEq, Prod.mk.injEq] at h
  obtain ⟨_, s1, hrow, _, s2, hfield, _, s3, hrecipients, _, s4, hopts, _, s5, hpush, _, s6, hbind,
    request, _, ⟨hread, rfl⟩, _, s7, horigin, _, s8, happend, _, _, ⟨_, rfl⟩, rfl, rfl⟩ := h
  obtain ⟨-, requests, -, rfl⟩ := insertRequest_eq_some hrow
  simp only [setAnswerField, Option.some.injEq, Prod.mk.injEq, true_and] at hfield
  subst hfield
  obtain ⟨_, rfl, -, -⟩ := eval_insertRecipients hrecipients
  obtain ⟨_, rfl, -⟩ := eval_insertOptions hopts
  obtain ⟨_, -, -, -, rfl⟩ := queuePushes_eq_some hpush
  obtain ⟨hbinds, -⟩ := bindsTo_of_eval hbind
  obtain ⟨_, hs7, -⟩ := eval_insertOrigin horigin
  obtain ⟨_, _, happended⟩ := appended_of_eval happend
  rw [happended.rest, hs7]
  exact hbinds

variable (P) in
/-- An accepted create replays the binding of its key, joins the pending request of its dedupe key
    or makes a request. -/
inductive CreateEnds (env : Env) (req : CreateDecisionRequest) (metadata : CreateRequestMetadata)
    (fingerprint : String) (s s' : Db) (created : CreatedDecisionRequest) : Prop
  | replayed (row : IdempotencyRow) (hbound : boundTo req metadata s = some row)
      (hsame : row.fingerprint = fingerprint)
      (hread : readRequest P s row.requestId = .ok created.request)
      (hcreated : created = ⟨row.requestId, true, created.request⟩) (hstore : s' = s)
  | joined (hfree : boundTo req metadata s = none)
      (hpending : pendingFor req s = some created.requestId)
      (hread : readRequest P s created.requestId = .ok created.request)
      (hjoin : Joinable req metadata.origin (recipientsFor req s) created.request s)
      (hcreated : created = ⟨created.requestId, true, created.request⟩)
      (hbinds : BindsTo (bindingOf req metadata fingerprint) created.requestId s.idempotency
        s'.idempotency)
      (hstore : s' = { s with idempotency := s'.idempotency })
  | made (hfree : boundTo req metadata s = none) (hpending : pendingFor req s = none)
      (hid : created.requestId = env.newId 0) (hdeduped : created.deduped = false)
      (hcreated : ∃ node, Created P env req metadata s s' created.request (recipientsFor req s) node)
      (hbinds : BindsTo (bindingOf req metadata fingerprint) created.requestId s.idempotency
        s'.idempotency)

section

variable {env : Env} {req : CreateDecisionRequest} {metadata : CreateRequestMetadata}
  {fingerprint : String} {s s' : Db} {created : CreatedDecisionRequest}

theorem createEnds_of_eval (hpasses : Passes P req metadata fingerprint)
    (h : Prog.eval databaseError (createRequest P env req metadata) s = .ok (created, s')) :
    CreateEnds P env req metadata fingerprint s s' created := by
  rw [eval_createRequest hpasses] at h
  cases hbound : boundTo req metadata s with
  | some row =>
    rw [hbound] at h
    dsimp only at h
    by_cases hsame : row.fingerprint = fingerprint
    · have h := (eval_replayCreate hsame).symm.trans h
      cases hread : readRequest P s row.requestId with
      | error e =>
        rw [hread] at h
        cases h
      | ok r =>
        rw [hread] at h
        cases h
        have hid : r.id = row.requestId := id_of_readRequest P hread
        exact .replayed row hbound hsame hread (by rw [hid]) rfl
    · rw [eval_replayCreate_of_ne hsame] at h
      cases h
  | none =>
    rw [hbound] at h
    obtain ⟨-, -, ⟨id, request, hpending, hread, hjoined⟩ | ⟨hpending, hmade⟩⟩ :=
      eval_createInChannel_eq_ok.mp h
    · obtain ⟨hjoin, hbind, hcreated⟩ := eval_joinPending_eq_ok.mp hjoined
      obtain ⟨hbinds, hstore⟩ := bindsTo_of_eval hbind
      have hid : request.id = id := id_of_readRequest P hread
      cases hcreated
      subst hid
      exact .joined hbound hpending hread hjoin rfl hbinds hstore
    · obtain ⟨hdeduped, hid, hcreated⟩ :=
        created_of_insertNew P hpasses.valid hpasses.options hmade
      have hbinds := bindsTo_of_insertNew hmade
      rw [← hid] at hbinds
      exact .made hbound hpending hid hdeduped hcreated hbinds

theorem boundTo_eq (req : CreateDecisionRequest) (metadata : CreateRequestMetadata) (db : Db) :
    boundTo req metadata db = (metadata.key.map fun key =>
      (metadata.scope, req.channelId, key)).bind db.idempotency.get? := by
  unfold boundTo
  cases metadata.key <;> rfl

/-- The row a create leaves its slot bound to. -/
def boundRow (slot : String × String × String) (fingerprint requestId : String) : IdempotencyRow :=
  ⟨slot.1, slot.2.1, slot.2.2, fingerprint, requestId⟩

/-- What an accepted create does to the keys. -/
structure BindsSlot (slot : Option (String × String × String)) (fingerprint requestId : String)
    (s s' : Db) : Prop where
  own : ∀ k ∈ slot, s'.idempotency.get? k = some (boundRow k fingerprint requestId)
  others : ∀ k, slot ≠ some k → s'.idempotency.get? k = s.idempotency.get? k
  old : ∀ k row, s.idempotency.get? k = some row → s'.idempotency.get? k = some row

theorem bindsSlot_of_bindsTo (hfree : boundTo req metadata s = none)
    {requestId : String} (h : BindsTo (bindingOf req metadata fingerprint) requestId
      s.idempotency s'.idempotency) :
    BindsSlot (metadata.key.map fun key => (metadata.scope, req.channelId, key)) fingerprint
      requestId s s' := by
  rw [boundTo_eq] at hfree
  unfold BindsTo bindingOf at h
  cases hkey : metadata.key with
  | none =>
    simp only [hkey] at h
    rw [Option.map_none]
    refine ⟨fun k hk => absurd hk (Option.not_mem_none k), fun k _ => by rw [h], fun k row hrow => ?_⟩
    rw [h, hrow]
  | some key =>
    simp only [hkey] at h
    rw [hkey, Option.map_some, Option.bind_some] at hfree
    have hget := Table.get?_insert? h
    rw [Option.map_some]
    refine ⟨fun k hk => ?_, fun k hk => ?_, fun k row hrow => ?_⟩
    · cases hk
      rw [hget]
      exact if_pos rfl
    · rw [hget]
      exact if_neg fun heq => hk (congrArg some heq)
    · rw [hget, if_neg, hrow]
      intro heq
      have heq : (metadata.scope, req.channelId, key) = k := heq
      rw [← heq, hfree] at hrow
      cases hrow

theorem CreateEnds.bindsSlot (h : CreateEnds P env req metadata fingerprint s s' created) :
    BindsSlot (metadata.key.map fun key => (metadata.scope, req.channelId, key)) fingerprint
      created.requestId s s' := by
  cases h with
  | replayed row hbound hsame hread hcreated hstore =>
    rw [boundTo_eq] at hbound
    rw [hstore]
    refine ⟨fun k hk => ?_, fun _ _ => rfl, fun _ _ hrow => hrow⟩
    rw [hk, Option.bind_some] at hbound
    have hindex : row.index = k := Table.key_of_get? hbound
    rw [hbound, ← hindex, hcreated, ← hsame]
    rfl
  | joined hfree hpending hread hjoin hcreated hbinds hstore => exact bindsSlot_of_bindsTo hfree hbinds
  | made hfree hpending hid hdeduped hcreated hbinds => exact bindsSlot_of_bindsTo hfree hbinds

theorem CreateEnds.stored (h : CreateEnds P env req metadata fingerprint s s' created) :
    s'.requests.get? created.requestId ≠ none ∧
      ∀ id, s.requests.get? id ≠ none → s'.requests.get? id ≠ none := by
  have hreads : ∀ {id : String} {r : DecisionRequest}, readRequest P s id = .ok r →
      s.requests.get? id ≠ none := by
    intro id r hread
    obtain ⟨row, -, -, hrow, -⟩ := (readRequest_eq_ok P).mp hread
    rw [hrow]
    exact Option.some_ne_none row
  cases h with
  | replayed row hbound hsame hread hcreated hstore =>
    rw [hstore, hcreated]
    exact ⟨hreads hread, fun _ hid => hid⟩
  | joined hfree hpending hread hjoin hcreated hbinds hstore =>
    rw [hstore]
    exact ⟨hreads hread, fun _ hid => hid⟩
  | made hfree hpending hid hdeduped hcreated hbinds =>
    obtain ⟨node, hcreated⟩ := hcreated
    rw [hid]
    refine ⟨?_, fun id hstored => ?_⟩
    · rw [hcreated.get?, if_pos rfl]
      exact Option.some_ne_none _
    · rw [hcreated.get?]
      split
      · exact Option.some_ne_none _
      · exact hstored

end

/-! ## Calls that bind no key -/

/-- No key is bound, and one is dropped with its request only. -/
structure KeysKept (s s' : Db) : Prop where
  old : ∀ k row, s'.idempotency.get? k = some row → s.idempotency.get? k = some row ∧
    (s.requests.get? row.requestId ≠ none → s'.requests.get? row.requestId ≠ none)
  kept : ∀ k row, s.idempotency.get? k = some row → s'.requests.get? row.requestId ≠ none →
    s'.idempotency.get? k = some row

theorem Drops.keysKept {gone : String → Bool} {s s' : Db} (h : Drops gone s s') :
    KeysKept s s' := by
  refine ⟨fun k row hrow => ?_, fun k row hrow hstored => ?_⟩
  · rw [h.idempotency, Table.get?_delete, Option.filter_eq_some_iff, Bool.not_eq_true'] at hrow
    exact ⟨hrow.1, fun hstored => (h.stored row.requestId).mpr ⟨hstored, hrow.2⟩⟩
  · have hstays := ((h.stored row.requestId).mp hstored).2
    rw [h.idempotency, Table.get?_delete, hrow, Option.filter_some, if_pos]
    rw [hstays]
    rfl

/-- A call that is not a create keeps the keys. -/
theorem keysKept_call (c : Call) (hc : ∀ create : CreateCall, c ≠ create.toCall) {s : Db}
    (hs : WellFormed P s) : KeysKept s (c.after P s) := by
  obtain ⟨gone, hdrops⟩ := drops_call c hc hs
  exact hdrops.keysKept

/-! ## Creates -/

section

variable {c : CreateCall} {s : Db}

/-- A create that was not accepted changed nothing. -/
theorem CreateCall.exec_cases (c : CreateCall) (s : Db) :
    (∃ e, c.exec P s = (.error e, s)) ∨ ∃ created s' fingerprint, c.exec P s = (.ok created, s') ∧
      Passes P c.req c.metadata fingerprint ∧
      Prog.eval databaseError (createRequest P c.env c.req c.metadata) s = .ok (created, s') ∧
      CreateEnds P c.env c.req c.metadata fingerprint s s' created := by
  rcases Prog.exec_cases databaseError _
    (transactional_createRequest P c.env c.req c.metadata) c.faults s with he | ⟨created, s', hexec, heval⟩
  · exact Or.inl he
  · obtain ⟨fingerprint, hpasses⟩ := passes_of_eval heval
    exact Or.inr ⟨created, s', fingerprint, hexec, hpasses, heval,
      createEnds_of_eval hpasses heval⟩

theorem CreateCall.after_toCall (c : CreateCall) (s : Db) :
    c.toCall.after P s = (c.exec P s).2 := rfl

end

/-! ## Runs -/

/-- A bound key stays bound while its request is stored. -/
theorem bound_call (c : Call) {s : Db} (hs : WellFormed P s) {k : String × String × String}
    {row : IdempotencyRow} (h : s.idempotency.get? k = some row)
    (hstored : (c.after P s).requests.get? row.requestId ≠ none) :
    (c.after P s).idempotency.get? k = some row := by
  by_cases hc : ∃ create : CreateCall, c = create.toCall
  · obtain ⟨create, rfl⟩ := hc
    rw [create.after_toCall]
    rcases create.exec_cases (P := P) s with ⟨e, he⟩ | ⟨created, s', fingerprint, hexec, -, -, hends⟩
    · rw [he]
      exact h
    · rw [hexec]
      exact hends.bindsSlot.old k row h
  · exact (keysKept_call c (fun create heq => hc ⟨create, heq⟩) hs).kept k row h hstored

theorem bound_run (calls : List Call) {s : Db} (hs : WellFormed P s) {k : String × String × String}
    {row : IdempotencyRow} (h : s.idempotency.get? k = some row)
    (hstored : s.requests.get? row.requestId ≠ none)
    (hend : (run P calls s).requests.get? row.requestId ≠ none) :
    (run P calls s).idempotency.get? k = some row := by
  induction calls generalizing s with
  | nil => exact h
  | cons c calls ih =>
    have hnext := stored_of_run hs c calls hstored hend
    exact ih ((moves_call c hs).wellFormed hs) (bound_call c hs h hnext) hnext hend

variable (P) in
/-- A create of a run that was accepted with this slot. -/
structure Accepted (calls : List Call) (c : CreateCall) (k : String × String × String)
    (id : String) : Prop where
  slot : c.slot = some k
  accepted : ∃ before after created, calls = before ++ c.toCall :: after ∧
    (c.exec P (run P before Db.empty)).1 = .ok created ∧ created.requestId = id

theorem Accepted.append {calls : List Call} {c : CreateCall} {k : String × String × String}
    {id : String} (h : Accepted P calls c k id) (more : List Call) :
    Accepted P (calls ++ more) c k id := by
  obtain ⟨before, after, created, rfl, hexec, hid⟩ := h.accepted
  refine ⟨h.slot, before, after ++ more, created, ?_, hexec, hid⟩
  rw [List.append_assoc, List.cons_append]

/-- An accepted create has bound its slot, for as long as its request is stored. -/
theorem Accepted.bound {calls : List Call} {c : CreateCall} {k : String × String × String}
    {id : String} (h : Accepted P calls c k id)
    (hstored : (run P calls Db.empty).requests.get? id ≠ none) :
    ∃ fingerprint, Passes P c.req c.metadata fingerprint ∧
      (run P calls Db.empty).idempotency.get? k = some (boundRow k fingerprint id) := by
  obtain ⟨before, after, created, rfl, hexec, rfl⟩ := h.accepted
  have hs := wellFormed_run_empty (P := P) before
  rcases c.exec_cases (P := P) (run P before Db.empty) with
    ⟨e, he⟩ | ⟨created', s', fingerprint, hexec', hpasses, heval, hends⟩
  · rw [he] at hexec
    cases hexec
  · rw [hexec'] at hexec
    cases hexec
    have hafter : run P (before ++ c.toCall :: after) Db.empty = run P after s' := by
      rw [run_append, run_cons, c.after_toCall, hexec']
    have hs' : WellFormed P s' := (moves_createRequest hs heval).wellFormed hs
    have hslot : c.metadata.key.map (fun key => (c.metadata.scope, c.req.channelId, key)) =
        some k := h.slot
    have hbound := hends.bindsSlot.own k hslot
    rw [hafter] at hstored ⊢
    exact ⟨fingerprint, hpasses, bound_run after hs' hbound hends.stored.1 hstored⟩

/-- Only accepted creates bind slots. -/
theorem accepted_of_bound (calls : List Call) {k : String × String × String} {row : IdempotencyRow}
    (h : (run P calls Db.empty).idempotency.get? k = some row) :
    (run P calls Db.empty).requests.get? row.requestId ≠ none ∧
      ∃ c, Accepted P calls c k row.requestId := by
  induction calls using List.reverseRecOn generalizing k row with
  | nil => cases h
  | append_singleton calls c ih =>
    have hs := wellFormed_run_empty (P := P) calls
    rw [run_append, run_cons, run_nil] at h ⊢
    by_cases hc : ∃ create : CreateCall, c = create.toCall
    · obtain ⟨create, rfl⟩ := hc
      rw [create.after_toCall] at h ⊢
      rcases create.exec_cases (P := P) (run P calls Db.empty) with
        ⟨e, he⟩ | ⟨created, s', fingerprint, hexec, -, -, hends⟩
      · rw [he] at h ⊢
        obtain ⟨hstored, earlier, haccepted⟩ := ih h
        exact ⟨hstored, earlier, haccepted.append _⟩
      · rw [hexec] at h ⊢
        by_cases hslot : create.slot = some k
        · have hown := hends.bindsSlot.own k hslot
          rw [h] at hown
          have hrow := Option.some.inj hown
          have hid : row.requestId = created.requestId := congrArg IdempotencyRow.requestId hrow
          rw [hid]
          refine ⟨hends.stored.1, create, hslot, calls, [], created, rfl, ?_, rfl⟩
          rw [hexec]
        · have hother := hends.bindsSlot.others k hslot
          rw [h] at hother
          obtain ⟨hstored, earlier, haccepted⟩ := ih hother.symm
          exact ⟨hends.stored.2 _ hstored, earlier, haccepted.append _⟩
    · have hkept := keysKept_call c (fun create heq => hc ⟨create, heq⟩) hs
      obtain ⟨hold, hstored⟩ := hkept.old k row h
      obtain ⟨hbefore, earlier, haccepted⟩ := ih hold
      exact ⟨hstored hbefore, earlier, haccepted.append _⟩

/-! ## Idempotency keys over a run -/

/-- Body and origin are what a repeated create is compared by. -/
def CreateCall.SameContent (c c' : CreateCall) : Prop :=
  c'.req = c.req ∧ c'.metadata.origin = c.metadata.origin

/-- The checks of a create's body, options and origin. -/
structure CreateCall.WellPosed (P : Packages) (c : CreateCall) : Prop where
  request : validateRequest P c.req = .ok ()
  options : validateOptions [] c.req.options = .ok ()
  origin : ∀ o ∈ c.metadata.origin, o.validate = .ok ()

/-- The same checks in the order they run in. -/
def CreateCall.contentCheck (P : Packages) (c : CreateCall) : Except ApiError Unit := do
  validateRequest P c.req
  validateOptions [] c.req.options
  match c.metadata.origin with
  | some origin => origin.validate
  | none => .ok ()

/-- A create that made one pending request. -/
def MadeOne (s s' : Db) (created : CreatedDecisionRequest) : Prop :=
  created.deduped = false ∧ s.requests.get? created.requestId = none ∧
    ∃ row, s'.requests.rows = s.requests.rows ++ [row] ∧ row.id = created.requestId ∧
      row.status = .pending

/-- A create that joined the pending request of its dedupe key. -/
def JoinedOne (req : CreateDecisionRequest) (s s' : Db) (created : CreatedDecisionRequest) : Prop :=
  created.deduped = true ∧ s' = { s with idempotency := s'.idempotency } ∧
    ∃ row, s.requests.get? created.requestId = some row ∧ row.status = .pending ∧
      row.channelId = req.channelId ∧ row.dedupeKey = req.dedupeKey ∧ req.dedupeKey ≠ none

/-- The create answers with the stored request and changes nothing; a failing store can only keep
    it from answering. -/
def Returns (P : Packages) (c : CreateCall) (s : Db) (id : String) : Prop :=
  ∃ r, readRequest P s id = .ok r ∧ (c.exec P s).2 = s ∧
    (∀ created, (c.exec P s).1 = .ok created → created = ⟨id, true, r⟩) ∧
    (c.faults = [] → (c.exec P s).1 = .ok ⟨id, true, r⟩)

/-- The create is refused and changes nothing. A well-posed one is refused as a conflict, any other
    one with the error of the check it fails, whatever the store does. -/
def Conflicts (P : Packages) (c : CreateCall) (s : Db) : Prop :=
  ∃ e, c.exec P s = (.error e, s) ∧
    (c.WellPosed P → c.faults = [] →
      e = .conflict "idempotency_key was already used for different request content") ∧
    (¬ c.WellPosed P → c.contentCheck P = .error e)

/-- Idempotency keys at the end of a run. -/
structure IdempotencyKeys (P : Packages) (calls : List Call) : Prop where
  first : ∀ (c : CreateCall) k created s', c.slot = some k →
    (∀ earlier id, Accepted P calls earlier k id →
      (run P calls Db.empty).requests.get? id = none) →
    c.exec P (run P calls Db.empty) = (.ok created, s') →
      MadeOne (run P calls Db.empty) s' created ∨
        JoinedOne c.req (run P calls Db.empty) s' created
  repeated : ∀ (earlier c : CreateCall) k id, Accepted P calls earlier k id →
    (run P calls Db.empty).requests.get? id ≠ none → c.slot = some k → earlier.SameContent c →
      Returns P c (run P calls Db.empty) id
  conflicting : ∀ (earlier c : CreateCall) k id, Accepted P calls earlier k id →
    (run P calls Db.empty).requests.get? id ≠ none → c.slot = some k → ¬ earlier.SameContent c →
      NoCollision P earlier.req c.req earlier.metadata.origin c.metadata.origin →
        Conflicts P c (run P calls Db.empty)
  others : ∀ (c : CreateCall) k, c.slot ≠ some k → (c.exec P (run P calls Db.empty)).2.idempotency.get? k =
    (run P calls Db.empty).idempotency.get? k
  blind : ∀ (c : CreateCall) t, KeysApart c.slot (run P calls Db.empty) t →
    (c.exec P t).1 = (c.exec P (run P calls Db.empty)).1 ∧
      KeysApart c.slot (c.exec P (run P calls Db.empty)).2 (c.exec P t).2

section

variable {calls : List Call} {c earlier : CreateCall} {k : String × String × String} {id : String}

theorem row_of_pendingFor {req : CreateDecisionRequest} {s : Db}
    (h : pendingFor req s = some id) : ∃ row, s.requests.get? id = some row ∧
      row.status = .pending ∧ row.channelId = req.channelId ∧ row.dedupeKey = req.dedupeKey ∧
        req.dedupeKey ≠ none := by
  unfold pendingFor at h
  cases hkey : req.dedupeKey with
  | none =>
    rw [hkey] at h
    cases h
  | some key =>
    rw [hkey, Option.bind_some, pendingByDedupeKey] at h
    obtain ⟨row, hfind, rfl⟩ := Option.map_eq_some_iff.mp h
    have hrow := List.find?_some hfind
    simp only [Bool.and_eq_true, decide_eq_true_eq] at hrow
    exact ⟨row, Table.get?_of_mem (List.mem_of_find?_eq_some hfind), hrow.2, hrow.1.1, hrow.1.2,
      Option.some_ne_none key⟩

/-- A create of a free slot makes a request or joins one. -/
theorem made_or_joined {s s' : Db} {created : CreatedDecisionRequest}
    (hfree : boundTo c.req c.metadata s = none) (h : c.exec P s = (.ok created, s')) :
    MadeOne s s' created ∨ JoinedOne c.req s s' created := by
  rcases c.exec_cases (P := P) s with ⟨e, he⟩ | ⟨created', s'', fingerprint, hexec, -, -, hends⟩
  · rw [he] at h
    cases h
  · rw [hexec] at h
    cases h
    cases hends with
    | replayed row hbound _ _ _ _ =>
      rw [hfree] at hbound
      cases hbound
    | joined _ hpending _ _ hcreated _ hstore =>
      refine Or.inr ⟨?_, hstore, row_of_pendingFor hpending⟩
      rw [hcreated]
    | made _ _ hid hdeduped hcreated _ =>
      obtain ⟨node, hcreated⟩ := hcreated
      refine Or.inl ⟨hdeduped, ?_, _, hcreated.requestRows, hid.symm, rfl⟩
      rw [hid]
      exact hcreated.fresh

theorem boundTo_of_slot {s : Db} (h : c.slot = some k) :
    boundTo c.req c.metadata s = s.idempotency.get? k := by
  rw [boundTo_eq]
  change c.slot.bind s.idempotency.get? = _
  rw [h, Option.bind_some]

/-- Calls with one slot check one key. -/
theorem key_of_slot {c' : CreateCall} (h : c.slot = some k) (h' : c'.slot = some k) :
    c'.metadata.key = c.metadata.key := by
  unfold CreateCall.slot at h h'
  obtain ⟨key, hkey, hk⟩ := Option.map_eq_some_iff.mp h
  obtain ⟨key', hkey', hk'⟩ := Option.map_eq_some_iff.mp h'
  rw [← hk'] at hk
  have hpair := (Prod.mk.inj (Prod.mk.inj hk).2).2
  rw [hkey, hkey', hpair]

/-- A create whose slot is bound to its fingerprint returns the request. -/
theorem returns_of_bound {s : Db} {fingerprint : String} {r : DecisionRequest}
    (hpasses : Passes P c.req c.metadata fingerprint) (hslot : c.slot = some k)
    (hbound : s.idempotency.get? k = some (boundRow k fingerprint id))
    (hread : readRequest P s id = .ok r) : Returns P c s id := by
  have hid : r.id = id := id_of_readRequest P hread
  have heval : Prog.eval databaseError (createRequest P c.env c.req c.metadata) s =
      .ok (⟨id, true, r⟩, s) := by
    rw [eval_createRequest hpasses, boundTo_of_slot hslot, hbound]
    refine (eval_replayCreate rfl).trans ?_
    change (readRequest P s id).map _ = _
    rw [hread]
    change Except.ok ((⟨r.id, true, r⟩, s) : CreatedDecisionRequest × Db) = _
    rw [hid]
  have htx := transactional_createRequest P c.env c.req c.metadata
  refine ⟨r, hread, ?_, fun created hok => ?_, fun hfaults => ?_⟩
  · exact Prog.exec_post (R := fun q => q.2 = s) htx (fun _ => rfl)
      (fun a s' h => by rw [heval] at h; cases h; rfl) c.faults
  · have hexec : Prog.exec databaseError (createRequest P c.env c.req c.metadata) c.faults s =
        (.ok created, (c.exec P s).2) := Prod.ext hok rfl
    have hsame := Prog.exec_ok htx hexec
    rw [heval] at hsame
    exact (Prod.mk.inj (Except.ok.inj hsame)).1.symm
  · unfold CreateCall.exec
    rw [hfaults, Prog.exec_nil_of_eval htx heval]

theorem contentCheck_eq_ok : c.contentCheck P = .ok () ↔ c.WellPosed P := by
  unfold CreateCall.contentCheck
  simp only [bind_eq_ok]
  constructor
  · intro h
    obtain ⟨_, hrequest, _, hoptions, horigin⟩ := h
    refine ⟨hrequest, hoptions, ?_⟩
    intro o ho
    rw [Option.mem_def.mp ho] at horigin
    exact horigin
  · intro h
    refine ⟨(), h.request, (), h.options, ?_⟩
    cases horigin : c.metadata.origin with
    | none => rfl
    | some o => exact h.origin o horigin

/-- Nothing is read or written before the checks are through. -/
theorem exec_of_contentCheck {e : ApiError} (hkey : checkIdempotencyKey c.metadata.key = .ok ())
    (h : c.contentCheck P = .error e) (s : Db) : c.exec P s = (.error e, s) := by
  have hkey' : checkIdempotencyKey (c.metadata.idempotencyKey.map Text.trim) = .ok () := hkey
  unfold CreateCall.contentCheck at h
  unfold CreateCall.exec createRequest
  cases hrequest : validateRequest P c.req with
  | error e' =>
    rw [hrequest] at h
    cases h
    rfl
  | ok _ =>
    rw [hrequest] at h
    cases hoptions : validateOptions [] c.req.options with
    | error e' =>
      rw [hoptions] at h
      cases h
      rfl
    | ok _ =>
      rw [hoptions] at h
      dsimp only
      rw [hkey']
      unfold requestFingerprint
      cases horigin : c.metadata.origin with
      | none =>
        rw [horigin] at h
        cases h
      | some o =>
        rw [horigin] at h
        change o.validate = .error e at h
        dsimp only
        rw [h]
        rfl

/-- A create whose slot is bound to another fingerprint is refused. -/
theorem conflicts_of_bound {s : Db} {fingerprint : String} (hslot : c.slot = some k)
    (hkey : checkIdempotencyKey c.metadata.key = .ok ())
    (hbound : s.idempotency.get? k = some (boundRow k fingerprint id))
    (hother : requestFingerprint P c.req c.metadata.origin ≠ .ok fingerprint) :
    Conflicts P c s := by
  by_cases hpasses : ∃ own, Passes P c.req c.metadata own
  · obtain ⟨own, hpasses⟩ := hpasses
    have hne : fingerprint ≠ own := by
      rintro rfl
      exact hother hpasses.fingerprint
    have heval : Prog.eval databaseError (createRequest P c.env c.req c.metadata) s = .error
        (.conflict "idempotency_key was already used for different request content") := by
      rw [eval_createRequest hpasses, boundTo_of_slot hslot, hbound]
      exact eval_replayCreate_of_ne hne
    have htx := transactional_createRequest P c.env c.req c.metadata
    rcases Prog.exec_cases databaseError _ htx c.faults s with ⟨e, he⟩ | ⟨a, w, -, hok⟩
    · refine ⟨e, he, fun _ hfaults => ?_, fun hill => absurd ?_ hill⟩
      · have hnil := Prog.exec_nil_of_eval_error htx heval
        rw [hfaults, hnil] at he
        exact (Except.error.inj (Prod.mk.inj he).1).symm
      · refine ⟨hpasses.valid, hpasses.options, ?_⟩
        intro o ho
        have hfingerprint := hpasses.fingerprint
        rw [Option.mem_def.mp ho] at hfingerprint
        exact (requestFingerprint_some.mp hfingerprint).1
    · rw [heval] at hok
      cases hok
  · have hill : ¬ c.WellPosed P := by
      intro hwell
      have hfingerprint : ∃ own, requestFingerprint P c.req c.metadata.origin = .ok own := by
        cases horigin : c.metadata.origin with
        | none => exact ⟨_, requestFingerprint_none.mpr rfl⟩
        | some o => exact ⟨_, requestFingerprint_some.mpr ⟨hwell.origin o horigin, rfl⟩⟩
      obtain ⟨own, hown⟩ := hfingerprint
      exact hpasses ⟨own, hwell.request, hwell.options, hkey, hown⟩
    cases hcheck : c.contentCheck P with
    | ok _ => exact absurd (contentCheck_eq_ok.mp hcheck) hill
    | error e =>
      exact ⟨e, exec_of_contentCheck hkey hcheck s, fun hwell => absurd hwell hill, fun _ => hcheck⟩

end

theorem idempotency_keys (calls : List Call) : IdempotencyKeys P calls where
  first c k created s' hslot hnone hexec := by
    refine made_or_joined ?_ hexec
    rw [boundTo_of_slot hslot]
    cases hbound : (run P calls Db.empty).idempotency.get? k with
    | none => rfl
    | some row =>
      obtain ⟨hstored, earlier, haccepted⟩ := accepted_of_bound calls hbound
      exact absurd (hnone earlier row.requestId haccepted) hstored
  repeated earlier c k id haccepted hstored hslot hsame := by
    obtain ⟨fingerprint, hpasses, hbound⟩ := haccepted.bound hstored
    obtain ⟨row, hrow⟩ := Option.ne_none_iff_exists'.mp hstored
    obtain ⟨r, hread⟩ := (legible_run_empty (P := P) calls).reads id row hrow
    obtain ⟨hreq, horigin⟩ := hsame
    refine returns_of_bound ⟨?_, ?_, ?_, ?_⟩ hslot hbound hread
    · rw [hreq]
      exact hpasses.valid
    · rw [hreq]
      exact hpasses.options
    · rw [key_of_slot haccepted.slot hslot]
      exact hpasses.key
    · rw [hreq, horigin]
      exact hpasses.fingerprint
  conflicting earlier c k id haccepted hstored hslot hdiffers hapart := by
    obtain ⟨fingerprint, hpasses, hbound⟩ := haccepted.bound hstored
    refine conflicts_of_bound hslot ?_ hbound fun hsame => hdiffers ?_
    · rw [key_of_slot haccepted.slot hslot]
      exact hpasses.key
    · exact requestFingerprint_inj hapart hpasses.fingerprint hsame
  others c k hne := by
    rcases c.exec_cases (P := P) (run P calls Db.empty) with
      ⟨e, he⟩ | ⟨created, s', fingerprint, hexec, -, -, hends⟩
    · rw [he]
    · rw [hexec]
      exact hends.bindsSlot.others k hne
  blind c t hapart := Prog.exec_alike databaseError
    (alike_createRequest c.env c.req c.metadata) c.faults hapart |>.imp Eq.symm id

/-! ## Content that is not well formed -/

def keyedCreate : CreateCall := ⟨sampleEnv, sampleRequest, ⟨none, none, some "deploy-42"⟩, []⟩

def untitledCreate : CreateCall :=
  { keyedCreate with req := { sampleRequest with title := "" } }

theorem keyedCreate_passes : ∃ fingerprint,
    Passes samplePackages keyedCreate.req keyedCreate.metadata fingerprint :=
  ⟨_, by rfl, by rfl, by rfl, requestFingerprint_none.mpr rfl⟩

theorem keyedCreate_accepted : ∃ created,
    (keyedCreate.exec samplePackages (opened sampleEnv)).1 = .ok created := by
  obtain ⟨fingerprint, hpasses⟩ := keyedCreate_passes
  have hexpires : ∀ t ∈ keyedCreate.req.expiresAt, t.FourDigitYear :=
    fun t ht => absurd ht (Option.not_mem_none t)
  obtain ⟨created, s', -, hexec, -⟩ := exists_created (tables_opened sampleEnv)
    (accepting_opened sampleEnv sampleEnv rfl rfl rfl (by decide) hexpires) hpasses
  exact ⟨created, congrArg Prod.fst hexec⟩

theorem sha256_keyed_ne_untitled : samplePackages.sha256Hex keyedCreate.req.toJson.text ≠
    samplePackages.sha256Hex untitledCreate.req.toJson.text := by decide +kernel

/-- The key again with a body that is not well formed is a bad request, not a conflict. -/
theorem untitled_create_is_bad_request :
    ∃ id, Accepted samplePackages [open_ sampleEnv, keyedCreate.toCall] keyedCreate
        ("admin", "default", "deploy-42") id ∧
      (run samplePackages [open_ sampleEnv, keyedCreate.toCall] Db.empty).requests.get? id ≠ none ∧
      untitledCreate.slot = some ("admin", "default", "deploy-42") ∧
      ¬ keyedCreate.SameContent untitledCreate ∧
      NoCollision samplePackages keyedCreate.req untitledCreate.req
        keyedCreate.metadata.origin untitledCreate.metadata.origin ∧
      untitledCreate.exec samplePackages
          (run samplePackages [open_ sampleEnv, keyedCreate.toCall] Db.empty) =
        (.error (.badRequest "request title is required"),
          run samplePackages [open_ sampleEnv, keyedCreate.toCall] Db.empty) := by
  obtain ⟨created, hcreated⟩ := keyedCreate_accepted
  have haccepted : Accepted samplePackages [open_ sampleEnv, keyedCreate.toCall] keyedCreate
      ("admin", "default", "deploy-42") created.requestId :=
    ⟨by decide, [open_ sampleEnv], [], created, rfl, hcreated, rfl⟩
  refine ⟨created.requestId, haccepted, ?_, by decide, ?_, ⟨fun h => ?_, ?_⟩,
    exec_of_invalid (by rfl) _ _⟩
  · rcases keyedCreate.exec_cases (P := samplePackages) (opened sampleEnv) with
      ⟨e, he⟩ | ⟨created', s', fingerprint, hexec, -, -, hends⟩
    · rw [he] at hcreated
      cases hcreated
    · rw [hexec] at hcreated
      cases hcreated
      have hafter : run samplePackages [open_ sampleEnv, keyedCreate.toCall] Db.empty = s' :=
        congrArg Prod.snd hexec
      rw [hafter]
      exact hends.stored.1
  · intro hsame
    exact absurd (congrArg CreateDecisionRequest.title hsame.1) (by decide)
  · exact absurd h sha256_keyed_ne_untitled
  · exact fun o ho => absurd ho (Option.not_mem_none o)

end Nod.Server
