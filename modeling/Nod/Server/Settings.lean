import Nod.Server.Accounts

/-
  Channels, subscriptions, clear marks and issuer tokens under the calls of the server.
  Proved: calls about requests leave all four alone (`settings_call`); deleting a channel takes its
  clear marks and leaves the tokens (`clears_deleteChannel`, `issuerTokens_deleteChannel`); the
  only administrative call that touches a clear mark is `clear_channel` (`clears_admin`).
-/

namespace Nod.Server

open Lib Nod.Proto

variable {P : Packages}

/-! ## Calls about requests -/

structure SameSettings (s s' : Db) : Prop where
  channels : s'.channels = s.channels
  subscriptions : s'.subscriptions = s.subscriptions
  clears : s'.clears = s.clears
  issuerTokens : s'.issuerTokens = s.issuerTokens

theorem sameSettings_refl (s : Db) : SameSettings s s := ⟨rfl, rfl, rfl, rfl⟩

theorem SameSettings.trans {a b c : Db} (h : SameSettings a b) (k : SameSettings b c) :
    SameSettings a c :=
  ⟨k.channels.trans h.channels, k.subscriptions.trans h.subscriptions, k.clears.trans h.clears,
    k.issuerTokens.trans h.issuerTokens⟩

theorem settings_appended {eventId now : String} {request : DecisionRequest} {kind : String}
    {decision : Option Decision} {s s' : Db}
    (h : Prog.eval databaseError (appendLifecycleOn eventId now request kind decision) s =
      .ok ((), s')) : SameSettings s s' := by
  obtain ⟨row, node, happended⟩ := appended_of_eval h
  rw [happended.rest]
  exact ⟨rfl, rfl, rfl, rfl⟩

theorem settings_created {env : Env} {req : CreateDecisionRequest}
    {metadata : CreateRequestMetadata} {s s' : Db} {created : CreatedDecisionRequest}
    (h : Prog.eval databaseError (createRequest P env req metadata) s = .ok (created, s')) :
    SameSettings s s' := by
  obtain hjoined | ⟨-, -, recipients, node, hcreated⟩ := created_of_eval P h
  · obtain ⟨idempotency, rfl⟩ := hjoined.rest
    exact ⟨rfl, rfl, rfl, rfl⟩
  · rw [hcreated.rest]
    exact ⟨rfl, rfl, rfl, rfl⟩

theorem settings_recorded {env : Env} {submission : DecisionSubmission} {s s' : Db}
    {resolved : DecisionRequest}
    (h : Prog.eval databaseError (recordDecision P env submission) s = .ok (resolved, s')) :
    SameSettings s s' := by
  obtain ⟨request, option, signature, signed, stored, row, node, -, hsigned, hstored, -,
    happended⟩ := recorded_of_eval P h
  rw [happended.rest, hstored.rest, hsigned.rest]
  exact ⟨rfl, rfl, rfl, rfl⟩

theorem settings_cancelled {env : Env} {id : String} {s s' : Db} {r : DecisionRequest}
    (h : Prog.eval databaseError (cancelRequest P env id) s = .ok (r, s')) : SameSettings s s' := by
  obtain ⟨-, -, happend⟩ := eval_cancelRequest_eq_ok P h
  have hrow : SameSettings s (cancelled id (env.nowString 0) s) := ⟨rfl, rfl, rfl, rfl⟩
  exact hrow.trans (settings_appended happend)

theorem settings_appendExpired {env : Env} {k : Nat} {ids : List String} {s s' : Db}
    {rs : List DecisionRequest}
    (h : Prog.eval databaseError (appendExpired P env k ids) s = .ok (rs, s')) :
    SameSettings s s' := by
  induction ids generalizing k s rs with
  | nil =>
    cases h
    exact sameSettings_refl _
  | cons id ids ih =>
    simp only [appendExpired, Prog.eval_bind_eq_ok, eval_getRequestOn_eq_ok, Prog.eval_pure,
      Except.ok.injEq, Prod.mk.injEq] at h
    obtain ⟨request, _, ⟨-, rfl⟩, _, mid, happend, rest, last, hrest, rfl, rfl⟩ := h
    exact (settings_appended happend).trans (ih hrest)

theorem settings_swept {env : Env} {s s' : Db} {rs : List DecisionRequest}
    (h : Prog.eval databaseError (expireDueRequests P env) s = .ok (rs, s')) :
    SameSettings s s' := by
  obtain ⟨ids, -, happend⟩ := eval_expireDueRequests_eq_ok P h
  have hrows : SameSettings s (swept (env.nowString 0) s) := ⟨rfl, rfl, rfl, rfl⟩
  exact hrows.trans (settings_appendExpired happend)

theorem settings_transactional {α : Type} {p : Sql α} (hp : Prog.Transactional p) {s : Db}
    (hok : ∀ a s', Prog.eval databaseError p s = .ok (a, s') → SameSettings s s')
    (faults : List Bool) : SameSettings s (Prog.exec databaseError p faults s).2 :=
  Prog.exec_post (R := fun r => SameSettings s r.2) hp (fun _ => sameSettings_refl s) hok faults

def Op.isDeleteChannel : Op → Bool
  | deleteChannel _ => true
  | _ => false

/-- Calls about requests leave channels, subscriptions, clear marks and tokens alone. -/
theorem settings_call (c : Call) (hadmin : c.op.isAdmin = false)
    (hdelete : c.op.isDeleteChannel = false) (s : Db) : SameSettings s (c.after P s) := by
  obtain ⟨op, faults⟩ := c
  unfold Call.after Call.exec
  cases op with
  | admin op => cases hadmin
  | deleteChannel channelId => cases hdelete
  | createRequest env req metadata =>
    exact settings_transactional (transactional_createRequest P env req metadata)
      (fun _ _ h => settings_created h) faults
  | recordDecision env submission =>
    exact settings_transactional (transactional_recordDecision P env submission)
      (fun _ _ h => settings_recorded h) faults
  | bindOrigin principal requestId origin =>
    obtain ⟨origins, h⟩ := (bound_bindOrigin principal requestId origin faults s).rest
    change SameSettings s (Prog.exec databaseError (bindOrigin principal requestId origin) faults s).2
    rw [h]
    exact ⟨rfl, rfl, rfl, rfl⟩
  | cancelRequest env requestId =>
    exact settings_transactional (transactional_cancelRequest P env requestId)
      (fun _ _ h => settings_cancelled h) faults
  | expireDueRequests env =>
    exact settings_transactional (transactional_expireDueRequests P env)
      (fun _ _ h => settings_swept h) faults
  | pruneRetention env retentionDays =>
    change SameSettings s (Prog.exec databaseError (pruneRetention env retentionDays) faults s).2
    obtain he | ⟨p, hp⟩ := exec_pruneRetention env retentionDays faults s
    · rw [he]
      exact sameSettings_refl s
    · rw [hp]
      exact ⟨rfl, rfl, rfl, rfl⟩

/-! ## Deleting a channel -/

theorem eval_deleteChannel_settings {channelId : String} {s s' : Db} {u : Unit}
    (h : Prog.eval databaseError (deleteChannel channelId) s = .ok (u, s')) :
    s'.clears = s.clears.delete (fun c => decide (c.channelId = channelId)) ∧
      s'.issuerTokens = s.issuerTokens := by
  simp only [deleteChannel, Prog.eval_bind_eq_ok, Prog.eval_lift_eq_ok, Prog.eval_beginTx,
    Prog.eval_onTx_eq_ok, Option.some.injEq, Except.ok.injEq, Prod.mk.injEq, Prog.eval_commitTx,
    deleteChannelRow] at h
  obtain ⟨_, _, ⟨_, rfl⟩, _, _, ⟨_, rfl⟩, _, s1, ⟨_, h1⟩, _, s2, ⟨_, h2⟩, _, s3, ⟨_, h3⟩, _, s4, ⟨_, h4⟩,
    _, s5, ⟨_, h5⟩, _, s6, ⟨_, h6⟩, deleted, s7, hlast, _, _, ⟨_, rfl⟩, _, rfl⟩ := h
  split at hlast
  · cases hlast
  · cases hlast
    rw [← h6, ← h5, ← h4, ← h3, ← h2, ← h1]
    exact ⟨rfl, rfl⟩

/-! ## Administrative calls -/

def SameClears (s s' : Db) : Prop := s'.clears = s.clears

theorem sameClears_refl (s : Db) : SameClears s s := rfl

theorem SameClears.trans {a b c : Db} (h : SameClears a b) (k : SameClears b c) : SameClears a c :=
  Eq.trans k h

theorem within_clearsRead {α : Type} (f : Db → α) :
    Prog.Within SameClears false false (Prog.onPool fun db => some (f db, db) : Sql α) :=
  Prog.within_onPool fun s _ s' h => by
    cases h
    rfl

theorem within_clearsQuery {α : Type} (f : Db → α) :
    Prog.Within SameClears true true (Prog.query f : Sql α) :=
  Prog.within_onTx fun s _ s' h => by
    cases h
    rfl

theorem clears_subscribeDefault {userId : String} {s s' : Db} {u : Unit}
    (h : subscribeDefault userId s = some (u, s')) : SameClears s s' := by
  unfold subscribeDefault at h
  split at h
  · cases h
    rfl
  · split at h
    · cases h
    · cases h
      rfl

theorem clears_upsertUser {id name now : String} {s s' : Db} {n : Nat}
    (h : upsertUser id name now s = some (n, s')) : SameClears s s' := by
  unfold upsertUser at h
  split at h
  · cases h
    rfl
  · split at h
    · cases h
      rfl
    · cases h
      rfl

theorem clears_upsertChannel {id name now : String} {s s' : Db} {u : Unit}
    (h : upsertChannel id name now s = some (u, s')) : SameClears s s' := by
  unfold upsertChannel at h
  split at h
  · cases h
    rfl
  · cases h
    rfl

theorem clears_upsertSubscription {row : SubscriptionRow} {s s' : Db} {u : Unit}
    (h : upsertSubscription row s = some (u, s')) : SameClears s s' := by
  unfold upsertSubscription at h
  split at h
  · cases h
  · split at h
    · cases h
      rfl
    · cases h
      rfl

theorem clears_insertIssuerToken {row : IssuerTokenRow} {s s' : Db} {u : Unit}
    (h : insertIssuerToken row s = some (u, s')) : SameClears s s' := by
  unfold insertIssuerToken at h
  split at h
  · cases h
  · obtain ⟨t, -, hdb⟩ := Option.map_eq_some_iff.mp h
    cases hdb
    rfl

theorem clears_insertEnrollmentCode {row : EnrollmentCodeRow} {s s' : Db} {u : Unit}
    (h : insertEnrollmentCode row s = some (u, s')) : SameClears s s' := by
  unfold insertEnrollmentCode at h
  split at h
  · cases h
  · obtain ⟨t, -, hdb⟩ := Option.map_eq_some_iff.mp h
    cases hdb
    rfl

theorem clears_insertDevice {row : DeviceRow} {s s' : Db} {u : Unit}
    (h : insertDevice row s = some (u, s')) : SameClears s s' := by
  unfold insertDevice at h
  split at h
  · cases h
  · obtain ⟨t, -, hdb⟩ := Option.map_eq_some_iff.mp h
    cases hdb
    rfl

attribute [local irreducible] Prog.Within

theorem within_clears_getUser (userId : String) :
    Prog.Within SameClears false false (getUser P userId) := by
  refine Prog.within_bind (within_clearsRead _) fun _ => ?_
  exact Prog.within_bind (Prog.within_lift _) fun _ => Prog.within_lift _

theorem within_clears_getChannel (channelId : String) :
    Prog.Within SameClears false false (getChannel P channelId) := by
  refine Prog.within_bind (within_clearsRead _) fun _ => ?_
  exact Prog.within_bind (Prog.within_lift _) fun _ => Prog.within_lift _

theorem within_clears_connect (env : Env) : Prog.Within SameClears false false (connect env) := by
  have hset : ∀ f : Db → Db, (∀ s, SameClears s (f s)) →
      Prog.Within SameClears false false (Prog.onPool fun db => some ((), f db) : Sql Unit) :=
    fun f hf => Prog.within_onPool fun s _ s' h => by
      cases h
      exact hf s
  refine Prog.within_bind (hset _ fun _ => rfl) fun _ => ?_
  refine Prog.within_bind (hset _ fun _ => rfl) fun _ => ?_
  refine Prog.within_bind (hset _ fun _ => rfl) fun _ => ?_
  refine Prog.within_bind (hset _ fun _ => rfl) fun _ => ?_
  exact Prog.within_onPool fun _ _ _ h => clears_subscribeDefault h

theorem within_clears_getDevice (deviceId : String) :
    Prog.Within SameClears false false (getDevice P deviceId) := by
  refine Prog.within_bind (within_clearsRead _) fun _ => ?_
  exact Prog.within_bind (Prog.within_lift _) fun _ => Prog.within_lift _

theorem within_clears_redeemCode (env : Env) (codeHash : String) (push : PushRegistration)
    (key : DeviceSigningKeyRequest) :
    Prog.Within SameClears false false (redeemCode P env codeHash push key) := by
  refine Prog.within_bind Prog.within_beginTx fun _ => ?_
  refine Prog.within_bind (within_clearsQuery _) fun _ => ?_
  refine Prog.within_bind (Prog.within_lift _) fun code => ?_
  refine Prog.within_bind (Prog.within_lift _) fun expiresAt => ?_
  refine Prog.within_bind (Prog.within_lift _) fun _ => ?_
  refine Prog.within_bind (within_clearsQuery _) fun _ => ?_
  refine Prog.within_bind (Prog.within_lift _) fun _ => ?_
  refine Prog.within_bind (Prog.within_onTx fun s _ s' h => ?_) fun _ => ?_
  · cases h
    rfl
  refine Prog.within_bind (Prog.within_lift _) fun _ => ?_
  refine Prog.within_bind (Prog.within_onTx fun _ _ _ h => clears_insertDevice h) fun _ => ?_
  refine Prog.within_bind Prog.within_commitTx fun _ => ?_
  exact Prog.within_pure _

theorem within_clears_enrollDevice (env : Env) (req : EnrollDeviceRequest) :
    Prog.Within SameClears false false (enrollDevice P env req) := by
  refine Prog.within_bind (Prog.within_lift _) fun checked => ?_
  obtain ⟨push, key⟩ := checked
  refine Prog.within_bind (within_clears_redeemCode _ _ _ _) fun _ => ?_
  refine Prog.within_bind (Prog.within_bind (within_clears_getDevice _) fun _ =>
    Prog.within_bind (within_clearsRead _) fun _ => Prog.within_lift _) fun _ => ?_
  refine Prog.within_bind (Prog.within_bind (within_clears_getUser _) fun _ =>
    Prog.within_bind (within_clearsRead _) fun _ => Prog.within_lift _) fun _ => ?_
  exact Prog.within_pure _

def AdminOp.isClearChannel : AdminOp → Bool
  | clearChannel _ _ _ => true
  | _ => false

/-- The only administrative call that touches a clear mark is the one that clears a channel. -/
theorem clears_admin {op : AdminOp} (hop : op.isClearChannel = false) (faults : List Bool) (s : Db) :
    SameClears s (Prog.exec databaseError (op.prog P) faults s).2 := by
  have hone : ∀ {α : Type} {f : Db → Option (α × Db)}, (∀ s a s', f s = some (a, s') →
      SameClears s s') → Prog.Within SameClears false false (Prog.onPool f : Sql α) :=
    fun h => Prog.within_onPool h
  have hrevoked : ∀ (p : DeviceRow → Bool) (now : String),
      Prog.Within SameClears false false (Prog.onPool (markDeviceRevoked p now) : Sql Nat) :=
    fun p now => hone fun s _ s' h => by
      cases h
      rfl
  have hwithin : Prog.Within SameClears false false (op.prog P) := by
    cases op with
    | connect env => exact within_clears_connect env
    | createUser env id name =>
      refine Prog.within_bind (Prog.within_lift _) fun _ => ?_
      refine Prog.within_bind (Prog.within_lift _) fun _ => ?_
      refine Prog.within_bind (hone fun _ _ _ h => clears_upsertUser h) fun _ => ?_
      refine Prog.within_bind (Prog.within_lift _) fun _ => ?_
      refine Prog.within_bind (hone fun _ _ _ h => clears_subscribeDefault h) fun _ => ?_
      exact within_clears_getUser id
    | updateUser env userId name =>
      refine Prog.within_bind (Prog.within_lift _) fun _ => ?_
      refine Prog.within_bind (Prog.within_lift _) fun _ => ?_
      refine Prog.within_bind (hone fun s _ s' h => ?_) fun _ => ?_
      · cases h
        rfl
      refine Prog.within_bind (Prog.within_lift _) fun _ => ?_
      exact within_clears_getUser userId
    | deleteUser env userId =>
      refine Prog.within_bind (Prog.within_lift _) fun _ => ?_
      refine Prog.within_bind Prog.within_beginTx fun _ => ?_
      refine Prog.within_bind (within_clearsQuery _) fun _ => ?_
      refine Prog.within_bind (Prog.within_lift _) fun _ => ?_
      refine Prog.within_bind (Prog.within_onTx fun s _ s' h => ?_) fun _ => ?_
      · cases h
        rfl
      refine Prog.within_bind (Prog.within_lift _) fun _ => ?_
      exact Prog.within_commitTx
    | createChannel env id name =>
      refine Prog.within_bind (Prog.within_lift _) fun _ => ?_
      refine Prog.within_bind (Prog.within_lift _) fun _ => ?_
      refine Prog.within_bind (hone fun _ _ _ h => clears_upsertChannel h) fun _ => ?_
      exact within_clears_getChannel id
    | setUserSubscription userId channelId subscribed =>
      refine Prog.within_bind (within_clears_getUser _) fun _ => ?_
      refine Prog.within_bind (within_clears_getChannel _) fun _ => ?_
      exact hone fun _ _ _ h => clears_upsertSubscription h
    | clearChannel env deviceId channelId => cases hop
    | createIssuerToken env name scopes =>
      refine Prog.within_bind (Prog.within_lift _) fun _ => ?_
      refine Prog.within_bind (hone fun _ _ _ h => clears_insertIssuerToken h) fun _ => ?_
      exact Prog.within_pure _
    | revokeIssuerToken env id =>
      refine Prog.within_bind (hone fun s _ s' h => ?_) fun _ => Prog.within_lift _
      cases h
      rfl
    | createEnrollmentCode env userId expires =>
      refine Prog.within_bind (Prog.within_lift _) fun _ => ?_
      refine Prog.within_bind (within_clears_getUser _) fun _ => ?_
      refine Prog.within_bind (hone fun _ _ _ h => clears_insertEnrollmentCode h) fun _ => ?_
      exact Prog.within_pure _
    | enrollDevice env req => exact within_clears_enrollDevice env req
    | recordDeviceAttestation deviceId verifiedAt =>
      refine hone fun s _ s' h => ?_
      unfold attestDevice at h
      split at h
      · cases h
      · cases h
        rfl
    | touchDevice env deviceId =>
      refine hone fun s _ s' h => ?_
      cases h
      rfl
    | deleteDevice env deviceId =>
      exact Prog.within_bind (hrevoked _ _) fun _ => Prog.within_lift _
    | revokeUserDevice env userId deviceId =>
      exact Prog.within_bind (hrevoked _ _) fun _ => Prog.within_lift _
  exact Prog.exec_within sameClears_refl SameClears.trans hwithin rfl

end Nod.Server
