import Nod.Server.Journal

/-
  Users, devices and enrollment codes under the calls of the server.
  Proved: calls about requests leave all three alone (`accounts_call`); an administrative call that
  enrolls no device keeps every code as it is, and its devices are the ones there were
  (`enrolled_call`).
-/

namespace Nod.Server

open Lib Nod.Proto

variable {P : Packages}

/-! ## Reading an account -/

theorem exec_poolRead {α : Type} (f : Db → α) (faults : List Bool) (s : Db) :
    Prog.exec databaseError (Prog.onPool fun db => some (f db, db)) faults s =
      if faults.head? = some true then (.error databaseError, s) else (.ok (f s), s) := by
  simp only [Prog.exec, Prog.onPool, Prog.run, Prog.Conn.statement]
  split <;> rfl

/-- A statement whose rows are decoded after it. -/
theorem exec_poolLift {α β : Type} (f : Db → α) (g : α → Except ApiError β) (faults : List Bool)
    (s : Db) :
    Prog.exec databaseError ((Prog.onPool fun db => some (f db, db)) >>= fun a => Prog.lift (g a))
        faults s =
      if faults.head? = some true then (.error databaseError, s) else (g (f s), s) := by
  rw [Prog.exec_bind_lift, exec_poolRead]
  split <;> rfl

/-- `parse_time` takes the text. -/
def Readable (text : String) : Prop := (DateTime.parseFromRfc3339 text).isSome = true

theorem exists_parseTime {text : String} : (∃ t, parseTime P text = .ok t) ↔ Readable text := by
  unfold Readable parseTime
  rw [Option.isSome_iff_exists]
  exact exists_congr fun t => orElse_eq_ok

/-- A clock reading is read back when its year has four digits. -/
theorem readable_stamp (t : DateTime) : Readable t.toRfc3339Millis ↔ t.FourDigitYear := by
  unfold Readable
  rw [Option.isSome_iff_exists]
  constructor
  · rintro ⟨u, hu⟩
    exact (DateTime.parse_toRfc3339Millis_eq_some hu).1
  · intro hyear
    exact ⟨_, DateTime.parse_toRfc3339Millis t hyear⟩

structure UserRow.Readable (row : UserRow) : Prop where
  createdAt : Server.Readable row.createdAt
  updatedAt : Server.Readable row.updatedAt

structure DeviceRow.Readable (row : DeviceRow) : Prop where
  lastSeenAt : Server.Readable row.lastSeenAt
  createdAt : Server.Readable row.createdAt

/-- A device as the lists of devices read it, with its attestation. -/
structure DeviceRow.Listable (row : DeviceRow) : Prop extends row.Readable where
  attestation : ∀ text ∈ row.attestationVerifiedAt, Server.Readable text

theorem exists_rowToUser {row : UserRow} : (∃ u, rowToUser P row = .ok u) ↔ row.Readable := by
  unfold rowToUser
  simp only [bind_eq_ok, pure_eq_ok]
  constructor
  · rintro ⟨u, t, ht, t', ht', -⟩
    exact ⟨exists_parseTime.mp ⟨t, ht⟩, exists_parseTime.mp ⟨t', ht'⟩⟩
  · intro h
    obtain ⟨t, ht⟩ := exists_parseTime.mpr h.createdAt
    obtain ⟨t', ht'⟩ := exists_parseTime.mpr h.updatedAt
    exact ⟨_, t, ht, t', ht', rfl⟩

theorem exists_rowToChannel {row : ChannelRow} {subscribed : Bool} :
    (∃ c, rowToChannel P row subscribed = .ok c) ↔ Readable row.createdAt := by
  unfold rowToChannel
  simp only [bind_eq_ok, pure_eq_ok]
  constructor
  · rintro ⟨c, t, ht, -⟩
    exact exists_parseTime.mp ⟨t, ht⟩
  · intro h
    obtain ⟨t, ht⟩ := exists_parseTime.mpr h
    exact ⟨_, t, ht, rfl⟩

theorem rowToDevice_eq_ok {row : DeviceRow} {device : Device} :
    rowToDevice P row = .ok device ↔ row.Readable ∧ device = row.toDevice := by
  unfold rowToDevice
  simp only [bind_eq_ok, pure_eq_ok]
  constructor
  · rintro ⟨t, ht, t', ht', rfl⟩
    exact ⟨⟨exists_parseTime.mp ⟨t, ht⟩, exists_parseTime.mp ⟨t', ht'⟩⟩, rfl⟩
  · rintro ⟨h, rfl⟩
    obtain ⟨t, ht⟩ := exists_parseTime.mpr h.lastSeenAt
    obtain ⟨t', ht'⟩ := exists_parseTime.mpr h.createdAt
    exact ⟨t, ht, t', ht', rfl⟩

theorem exists_parseOptionalTime {value : Option String} :
    (∃ t, parseOptionalTime P value = .ok t) ↔ ∀ text ∈ value, Readable text := by
  cases value with
  | none => exact iff_of_true ⟨none, rfl⟩ fun text h => absurd h (Option.not_mem_none text)
  | some text =>
    constructor
    · rintro ⟨t, ht⟩ text' htext
      obtain ⟨u, hu, -⟩ := map_eq_ok.mp ht
      cases htext
      exact exists_parseTime.mp ⟨u, hu⟩
    · intro h
      obtain ⟨u, hu⟩ := exists_parseTime.mpr (h text rfl)
      exact ⟨some u, map_eq_ok.mpr ⟨u, hu, rfl⟩⟩

theorem exists_rowToUserDevice {row : DeviceRow} {currentDeviceId : String} :
    (∃ d, rowToUserDevice P currentDeviceId row = .ok d) ↔ row.Listable := by
  unfold rowToUserDevice
  simp only [bind_eq_ok, pure_eq_ok]
  constructor
  · rintro ⟨d, t, ht, t', ht', t'', ht'', -⟩
    exact ⟨⟨exists_parseTime.mp ⟨t', ht'⟩, exists_parseTime.mp ⟨t'', ht''⟩⟩,
      exists_parseOptionalTime.mp ⟨t, ht⟩⟩
  · intro h
    obtain ⟨t, ht⟩ := exists_parseOptionalTime.mpr h.attestation
    obtain ⟨t', ht'⟩ := exists_parseTime.mpr h.lastSeenAt
    obtain ⟨t'', ht''⟩ := exists_parseTime.mpr h.createdAt
    exact ⟨_, t, ht, t', ht', t'', ht'', rfl⟩

/-- A row that is there, passes a test and can be decoded is found; any other read fails. -/
theorem orElse_filter_bind {α β : Type} (row : Option α) (p : α → Bool) (f : α → Except ApiError β) :
    (∃ a b, row = some a ∧ p a = true ∧ f a = .ok b ∧
      (orElse ApiError.notFound (row.filter p) >>= f) = .ok b) ∨
    (¬ ∃ a b, row = some a ∧ p a = true ∧ f a = .ok b) ∧
      ∃ e, (orElse ApiError.notFound (row.filter p) >>= f) = .error e := by
  cases row with
  | none => exact Or.inr ⟨fun ⟨_, _, h, _⟩ => (by cases h), _, rfl⟩
  | some a =>
    cases hp : p a with
    | false =>
      refine Or.inr ⟨?_, .notFound, ?_⟩
      · rintro ⟨_, b, ⟨⟩, hpb, -⟩
        rw [hp] at hpb
        cases hpb
      · rw [Option.filter_some, if_neg (by rw [hp]; exact Bool.false_ne_true)]
        rfl
    | true =>
      have hfound : (orElse ApiError.notFound ((some a).filter p) >>= f) = f a := by
        rw [Option.filter_some, if_pos hp]
        rfl
      cases hf : f a with
      | ok b => exact Or.inl ⟨a, b, rfl, hp, hf, hfound.trans hf⟩
      | error e =>
        refine Or.inr ⟨?_, e, hfound.trans hf⟩
        rintro ⟨_, b, ⟨⟩, -, hb⟩
        rw [hf] at hb
        cases hb

/-- Reading one row that is live: the row is decoded, or the read fails. -/
theorem exec_readRow {α β : Type} {g : Db → Option α} {p : α → Bool} {f : α → Except ApiError β}
    (faults : List Bool) (s : Db) :
    let r := Prog.exec databaseError (do
      let row ← Prog.onPool fun db => some (g db, db)
      let row ← Prog.lift (orElse .notFound (row.filter p))
      Prog.lift (f row)) faults s
    (∃ a b, faults.head? ≠ some true ∧ g s = some a ∧ p a = true ∧ f a = .ok b ∧ r = (.ok b, s)) ∨
      (faults.head? = some true ∨ ¬ ∃ a b, g s = some a ∧ p a = true ∧ f a = .ok b) ∧
        ∃ e, r = (.error e, s) := by
  intro r
  have hprog : r = Prog.exec databaseError ((Prog.onPool fun db => some (g db, db)) >>= fun row =>
      Prog.lift (orElse .notFound (row.filter p) >>= f)) faults s := by
    refine congrArg (fun prog => Prog.exec databaseError prog faults s) ?_
    refine congrArg (Prog.stmt Handle.pool _) (funext fun row => ?_)
    exact Prog.lift_bind_lift _ f
  rw [hprog, exec_poolLift]
  by_cases hfault : faults.head? = some true
  · rw [if_pos hfault]
    exact Or.inr ⟨Or.inl hfault, _, rfl⟩
  · rw [if_neg hfault]
    obtain ⟨a, b, ha, hp, hf, hr⟩ | ⟨hnone, e, hr⟩ := orElse_filter_bind (g s) p f
    · exact Or.inl ⟨a, b, hfault, ha, hp, hf, by rw [hr]⟩
    · exact Or.inr ⟨Or.inr hnone, e, by rw [hr]⟩

/-- A device is read back when the statement does not fail, the device is not revoked, and its times
    can be read. -/
theorem exec_getDevice (deviceId : String) (faults : List Bool) (s : Db) :
    (∃ row, faults.head? ≠ some true ∧ s.devices.get? deviceId = some row ∧ row.revokedAt = none ∧
      row.Readable ∧
      Prog.exec databaseError (getDevice P deviceId) faults s = (.ok row.toDevice, s)) ∨
    (faults.head? = some true ∨ ¬ ∃ row, s.devices.get? deviceId = some row ∧
        row.revokedAt = none ∧ row.Readable) ∧
      ∃ e, Prog.exec databaseError (getDevice P deviceId) faults s = (.error e, s) := by
  obtain ⟨row, d, hfault, hrow, hlive, hd, hr⟩ | ⟨hwhy, e, hr⟩ := exec_readRow
    (g := fun db => db.devices.get? deviceId) (p := fun d => d.revokedAt = none)
    (f := rowToDevice P) faults s
  · obtain ⟨hreadable, rfl⟩ := rowToDevice_eq_ok.mp hd
    exact Or.inl ⟨row, hfault, hrow, of_decide_eq_true hlive, hreadable, hr⟩
  · refine Or.inr ⟨hwhy.imp id fun hnone => ?_, e, hr⟩
    rintro ⟨row, hrow, hlive, hreadable⟩
    exact hnone ⟨row, _, hrow, decide_eq_true hlive, rowToDevice_eq_ok.mpr ⟨hreadable, rfl⟩⟩

theorem eval_getDevice_eq_ok {deviceId : String} {s s' : Db} {device : Device} :
    Prog.eval databaseError (getDevice P deviceId) s = .ok (device, s') ↔
      ∃ row, s.devices.get? deviceId = some row ∧ row.revokedAt = none ∧ row.Readable ∧
        device = row.toDevice ∧ s' = s := by
  simp only [getDevice, Prog.eval_bind_eq_ok, Prog.eval_onPool_eq_ok, Prog.eval_lift_eq_ok,
    Option.some.injEq, Prod.mk.injEq]
  constructor
  · rintro ⟨found, _, ⟨rfl, rfl⟩, row, _, ⟨hrow, rfl⟩, hdevice, rfl⟩
    obtain ⟨hget, hlive⟩ := Option.filter_eq_some_iff.mp (orElse_eq_ok.mp hrow)
    obtain ⟨hreadable, hsame⟩ := rowToDevice_eq_ok.mp hdevice
    exact ⟨row, hget, of_decide_eq_true hlive, hreadable, hsame, rfl⟩
  · rintro ⟨row, hget, hlive, hreadable, rfl, rfl⟩
    refine ⟨_, _, ⟨rfl, rfl⟩, row, _, ⟨orElse_eq_ok.mpr ?_, rfl⟩,
      rowToDevice_eq_ok.mpr ⟨hreadable, rfl⟩, rfl⟩
    exact Option.filter_eq_some_iff.mpr ⟨hget, decide_eq_true hlive⟩

theorem exec_getUser (userId : String) (faults : List Bool) (s : Db) :
    (∃ row u, faults.head? ≠ some true ∧ s.users.get? userId = some row ∧ row.deletedAt = none ∧
      row.Readable ∧ Prog.exec databaseError (getUser P userId) faults s = (.ok u, s)) ∨
    (faults.head? = some true ∨ ¬ ∃ row, s.users.get? userId = some row ∧
        row.deletedAt = none ∧ row.Readable) ∧
      ∃ e, Prog.exec databaseError (getUser P userId) faults s = (.error e, s) := by
  obtain ⟨row, u, hfault, hrow, hlive, hu, hr⟩ | ⟨hwhy, e, hr⟩ := exec_readRow
    (g := fun db => db.users.get? userId) (p := fun u => u.deletedAt = none)
    (f := rowToUser P) faults s
  · exact Or.inl ⟨row, u, hfault, hrow, of_decide_eq_true hlive, exists_rowToUser.mp ⟨u, hu⟩, hr⟩
  · refine Or.inr ⟨hwhy.imp id fun hnone => ?_, e, hr⟩
    rintro ⟨row, hrow, hlive, hreadable⟩
    obtain ⟨u, hu⟩ := exists_rowToUser.mpr hreadable
    exact hnone ⟨row, u, hrow, decide_eq_true hlive, hu⟩

/-- Reading a list of rows: every row is decoded, or the read fails. -/
theorem exec_readRows {α β : Type} {g : Db → List α} {f : α → Except ApiError β}
    (faults : List Bool) (s : Db) :
    let r := Prog.exec databaseError (do
      let rows ← Prog.onPool fun db => some (g db, db)
      Prog.lift (rows.mapM f)) faults s
    (faults.head? ≠ some true ∧ (∀ a ∈ g s, ∃ b, f a = .ok b) ∧ ∃ bs, r = (.ok bs, s)) ∨
      (faults.head? = some true ∨ ¬ ∀ a ∈ g s, ∃ b, f a = .ok b) ∧ ∃ e, r = (.error e, s) := by
  intro r
  have hr : r = if faults.head? = some true then (.error databaseError, s)
      else ((g s).mapM f, s) := exec_poolLift g (fun rows => rows.mapM f) faults s
  rw [hr]
  by_cases hfault : faults.head? = some true
  · rw [if_pos hfault]
    exact Or.inr ⟨Or.inl hfault, _, rfl⟩
  · rw [if_neg hfault]
    cases hrows : (g s).mapM f with
    | ok bs => exact Or.inl ⟨hfault, fun a ha => exists_of_mapM hrows ha, bs, rfl⟩
    | error e =>
      refine Or.inr ⟨Or.inr fun hall => ?_, e, rfl⟩
      obtain ⟨bs, hbs⟩ := exists_mapM hall
      rw [hrows] at hbs
      cases hbs

theorem exec_listChannelsForUser (userId : String) (faults : List Bool) (s : Db) :
    (faults.head? ≠ some true ∧ (∀ c ∈ s.channels.rows, Readable c.createdAt) ∧
      ∃ channels, Prog.exec databaseError (listChannelsForUser P userId) faults s =
        (.ok channels, s)) ∨
    (faults.head? = some true ∨ ¬ ∀ c ∈ s.channels.rows, Readable c.createdAt) ∧
      ∃ e, Prog.exec databaseError (listChannelsForUser P userId) faults s = (.error e, s) := by
  have hrows : (∀ row ∈ channelsForUser userId s, ∃ c, rowToChannel P row.1 row.2 = .ok c) ↔
      ∀ c ∈ s.channels.rows, Readable c.createdAt := by
    unfold channelsForUser
    simp only [List.forall_mem_map, List.mem_mergeSort, exists_rowToChannel]
  rw [← hrows]
  exact exec_readRows (g := channelsForUser userId) faults s

theorem exec_selectUserDevices (userId currentDeviceId : String) (faults : List Bool) (s : Db) :
    (faults.head? ≠ some true ∧
      (∀ d ∈ s.devices.rows, d.userId = userId → d.revokedAt = none → d.Listable) ∧
      ∃ devices, Prog.exec databaseError (selectUserDevices P userId currentDeviceId) faults s =
        (.ok devices, s)) ∨
    (faults.head? = some true ∨
        ¬ ∀ d ∈ s.devices.rows, d.userId = userId → d.revokedAt = none → d.Listable) ∧
      ∃ e, Prog.exec databaseError (selectUserDevices P userId currentDeviceId) faults s =
        (.error e, s) := by
  have hrows : (∀ row ∈ devicesOfUser userId s, ∃ d, rowToUserDevice P currentDeviceId row = .ok d) ↔
      ∀ d ∈ s.devices.rows, d.userId = userId → d.revokedAt = none → d.Listable := by
    unfold devicesOfUser
    simp only [List.mem_mergeSort, List.mem_filter, Bool.and_eq_true, decide_eq_true_eq,
      exists_rowToUserDevice, and_imp]
  rw [← hrows]
  exact exec_readRows (g := devicesOfUser userId) faults s

/-! ## Calls about requests -/

structure SameAccounts (s s' : Db) : Prop where
  users : s'.users = s.users
  devices : s'.devices = s.devices
  enrollmentCodes : s'.enrollmentCodes = s.enrollmentCodes

theorem sameAccounts_refl (s : Db) : SameAccounts s s := ⟨rfl, rfl, rfl⟩

theorem SameAccounts.trans {a b c : Db} (h : SameAccounts a b) (k : SameAccounts b c) :
    SameAccounts a c :=
  ⟨k.users.trans h.users, k.devices.trans h.devices, k.enrollmentCodes.trans h.enrollmentCodes⟩

theorem accounts_transactional {α : Type} {p : Sql α} (hp : Prog.Transactional p) {s : Db}
    (hok : ∀ a s', Prog.eval databaseError p s = .ok (a, s') → SameAccounts s s')
    (faults : List Bool) : SameAccounts s (Prog.exec databaseError p faults s).2 :=
  Prog.exec_post (R := fun r => SameAccounts s r.2) hp (fun _ => sameAccounts_refl s) hok faults

theorem accounts_appended {eventId now : String} {request : DecisionRequest} {kind : String}
    {decision : Option Decision} {s s' : Db}
    (h : Prog.eval databaseError (appendLifecycleOn eventId now request kind decision) s =
      .ok ((), s')) : SameAccounts s s' := by
  obtain ⟨row, node, happended⟩ := appended_of_eval h
  rw [happended.rest]
  exact ⟨rfl, rfl, rfl⟩

theorem accounts_created {env : Env} {req : CreateDecisionRequest}
    {metadata : CreateRequestMetadata} {s s' : Db} {created : CreatedDecisionRequest}
    (h : Prog.eval databaseError (createRequest P env req metadata) s = .ok (created, s')) :
    SameAccounts s s' := by
  rcases created_of_eval P h with hjoined | ⟨-, -, recipients, node, hcreated⟩
  · obtain ⟨idempotency, rfl⟩ := hjoined.rest
    exact ⟨rfl, rfl, rfl⟩
  · rw [hcreated.rest]
    exact ⟨rfl, rfl, rfl⟩

theorem accounts_recorded {env : Env} {submission : DecisionSubmission} {s s' : Db}
    {resolved : DecisionRequest}
    (h : Prog.eval databaseError (recordDecision P env submission) s = .ok (resolved, s')) :
    SameAccounts s s' := by
  obtain ⟨request, option, signature, signed, stored, row, node, -, hsigned, hstored, -,
    happended⟩ := recorded_of_eval P h
  rw [happended.rest, hstored.rest, hsigned.rest]
  exact ⟨rfl, rfl, rfl⟩

theorem accounts_cancelled {env : Env} {id : String} {s s' : Db} {r : DecisionRequest}
    (h : Prog.eval databaseError (cancelRequest P env id) s = .ok (r, s')) : SameAccounts s s' := by
  obtain ⟨-, -, happend⟩ := eval_cancelRequest_eq_ok P h
  have hrow : SameAccounts s (cancelled id (env.nowString 0) s) := ⟨rfl, rfl, rfl⟩
  exact hrow.trans (accounts_appended happend)

theorem accounts_appendExpired {env : Env} {k : Nat} {ids : List String} {s s' : Db}
    {rs : List DecisionRequest}
    (h : Prog.eval databaseError (appendExpired P env k ids) s = .ok (rs, s')) : SameAccounts s s' := by
  induction ids generalizing k s rs with
  | nil =>
    cases h
    exact sameAccounts_refl _
  | cons id ids ih =>
    simp only [appendExpired, Prog.eval_bind_eq_ok, eval_getRequestOn_eq_ok, Prog.eval_pure,
      Except.ok.injEq, Prod.mk.injEq] at h
    obtain ⟨request, _, ⟨-, rfl⟩, _, mid, happend, rest, last, hrest, rfl, rfl⟩ := h
    exact (accounts_appended happend).trans (ih hrest)

theorem accounts_swept {env : Env} {s s' : Db} {rs : List DecisionRequest}
    (h : Prog.eval databaseError (expireDueRequests P env) s = .ok (rs, s')) : SameAccounts s s' := by
  obtain ⟨ids, -, happend⟩ := eval_expireDueRequests_eq_ok P h
  have hrows : SameAccounts s (swept (env.nowString 0) s) := ⟨rfl, rfl, rfl⟩
  exact hrows.trans (accounts_appendExpired happend)

theorem within_deleteChannel (channelId : String) :
    Prog.Within SameAccounts false false (deleteChannel channelId) := by
  have hstmt : ∀ f : Db → Db, (∀ s, SameAccounts s (f s)) →
      Prog.Within SameAccounts true true (Prog.onTx fun db => some ((), f db) : Sql Unit) :=
    fun f hf => Prog.within_onTx fun s _ s' h => by
      cases h
      exact hf s
  refine Prog.within_bind (Prog.within_lift _) fun _ => ?_
  refine Prog.within_bind Prog.within_beginTx fun _ => ?_
  refine Prog.within_bind (hstmt _ fun _ => ⟨rfl, rfl, rfl⟩) fun _ => ?_
  refine Prog.within_bind (hstmt _ fun _ => ⟨rfl, rfl, rfl⟩) fun _ => ?_
  refine Prog.within_bind (hstmt _ fun _ => ⟨rfl, rfl, rfl⟩) fun _ => ?_
  refine Prog.within_bind (hstmt _ fun _ => ⟨rfl, rfl, rfl⟩) fun _ => ?_
  refine Prog.within_bind (hstmt _ fun _ => ⟨rfl, rfl, rfl⟩) fun _ => ?_
  refine Prog.within_bind (hstmt _ fun _ => ⟨rfl, rfl, rfl⟩) fun _ => ?_
  refine Prog.within_bind (Prog.within_onTx fun s _ s' h => ?_) fun _ => ?_
  · unfold deleteChannelRow at h
    split at h
    · cases h
    · cases h
      exact ⟨rfl, rfl, rfl⟩
  · refine Prog.within_bind (Prog.within_lift _) fun _ => ?_
    exact Prog.within_commitTx

def Op.isAdmin : Op → Bool
  | admin _ => true
  | _ => false

/-- Calls about requests leave users, devices and codes alone. -/
theorem accounts_call (c : Call) (hop : c.op.isAdmin = false) (s : Db) :
    SameAccounts s (c.after P s) := by
  obtain ⟨op, faults⟩ := c
  unfold Call.after Call.exec
  cases op with
  | admin op => cases hop
  | deleteChannel channelId =>
    exact Prog.exec_within sameAccounts_refl (fun h k => h.trans k) (within_deleteChannel channelId) rfl
  | createRequest env req metadata =>
    exact accounts_transactional (transactional_createRequest P env req metadata)
      (fun _ _ h => accounts_created h) faults
  | recordDecision env submission =>
    exact accounts_transactional (transactional_recordDecision P env submission)
      (fun _ _ h => accounts_recorded h) faults
  | bindOrigin principal requestId origin =>
    obtain ⟨origins, h⟩ := (bound_bindOrigin principal requestId origin faults s).rest
    change SameAccounts s (Prog.exec databaseError (bindOrigin principal requestId origin) faults s).2
    rw [h]
    exact ⟨rfl, rfl, rfl⟩
  | cancelRequest env requestId =>
    exact accounts_transactional (transactional_cancelRequest P env requestId)
      (fun _ _ h => accounts_cancelled h) faults
  | expireDueRequests env =>
    exact accounts_transactional (transactional_expireDueRequests P env)
      (fun _ _ h => accounts_swept h) faults
  | pruneRetention env retentionDays =>
    change SameAccounts s (Prog.exec databaseError (pruneRetention env retentionDays) faults s).2
    rcases exec_pruneRetention env retentionDays faults s with he | ⟨p, hp⟩
    · rw [he]
      exact sameAccounts_refl s
    · rw [hp]
      exact ⟨rfl, rfl, rfl⟩

/-! ## Calls that enroll no device -/

/-- Codes stay as they are, and so do the owners of the devices. -/
structure EnrollmentKept (s s' : Db) : Prop where
  codes : ∀ h c, s.enrollmentCodes.get? h = some c → s'.enrollmentCodes.get? h = some c
  devices : s'.devices.rows.map (fun d => (d.id, d.userId)) =
    s.devices.rows.map fun d => (d.id, d.userId)

theorem enrollmentKept_refl (s : Db) : EnrollmentKept s s := ⟨fun _ _ h => h, rfl⟩

theorem EnrollmentKept.trans {a b c : Db} (h : EnrollmentKept a b) (k : EnrollmentKept b c) :
    EnrollmentKept a c :=
  ⟨fun hash code hcode => k.codes hash code (h.codes hash code hcode), k.devices.trans h.devices⟩

theorem SameAccounts.enrollmentKept {s s' : Db} (h : SameAccounts s s') : EnrollmentKept s s' := by
  refine ⟨fun hash c hc => ?_, by rw [h.devices]⟩
  rw [h.enrollmentCodes]
  exact hc

theorem enrollmentKept_of_eq {s s' : Db} (hcodes : s'.enrollmentCodes = s.enrollmentCodes)
    (hdevices : s'.devices = s.devices) : EnrollmentKept s s' := by
  refine ⟨fun hash c hc => ?_, by rw [hdevices]⟩
  rw [hcodes]
  exact hc

/-- A change of devices that keeps their ids and owners. -/
theorem enrollmentKept_updateDevices (s : Db) (p : DeviceRow → Bool) (f : DeviceRow → DeviceRow)
    (hf : ∀ d, (f d).id = d.id) (howner : ∀ d, (f d).userId = d.userId) :
    EnrollmentKept s { s with devices := s.devices.update p f hf } := by
  refine ⟨fun _ _ hc => hc, ?_⟩
  rw [Table.rows_update, List.map_map]
  refine List.map_congr_left fun d _ => ?_
  rw [Function.comp_apply]
  split
  · rw [hf, howner]
  · rfl

theorem enrollmentKept_stmt {s s' : Db} (h : AdminStmt s s') : EnrollmentKept s s' := by
  cases h with
  | read => exact enrollmentKept_refl s
  | resalted env h =>
    cases h
    exact enrollmentKept_of_eq rfl rfl
  | nodeSeeded env h =>
    cases h
    exact enrollmentKept_of_eq rfl rfl
  | channelSeeded now h =>
    cases h
    exact enrollmentKept_of_eq rfl rfl
  | userSeeded now h =>
    cases h
    exact enrollmentKept_of_eq rfl rfl
  | subscribed userId h =>
    unfold subscribeDefault at h
    split at h
    · cases h
      exact enrollmentKept_refl s
    · split at h
      · cases h
      · cases h
        exact enrollmentKept_of_eq rfl rfl
  | userUpserted hid name now h =>
    unfold upsertUser at h
    split at h
    · cases h
      exact enrollmentKept_of_eq rfl rfl
    · split at h
      · cases h
        exact enrollmentKept_of_eq rfl rfl
      · cases h
        exact enrollmentKept_refl s
  | userRenamed userId name now h =>
    cases h
    exact enrollmentKept_of_eq rfl rfl
  | userDeleted userId now h =>
    cases h
    exact enrollmentKept_of_eq rfl rfl
  | channelUpserted id name now h =>
    unfold upsertChannel at h
    split at h
    · cases h
      exact enrollmentKept_of_eq rfl rfl
    · cases h
      exact enrollmentKept_of_eq rfl rfl
  | subscriptionUpserted row h =>
    unfold upsertSubscription at h
    split at h
    · cases h
    · split at h
      · cases h
        exact enrollmentKept_of_eq rfl rfl
      · cases h
        exact enrollmentKept_of_eq rfl rfl
  | clearUpserted row h =>
    unfold upsertClear at h
    split at h
    · cases h
    · split at h
      · cases h
        exact enrollmentKept_of_eq rfl rfl
      · cases h
        exact enrollmentKept_of_eq rfl rfl
  | tokenInserted row h =>
    unfold insertIssuerToken at h
    split at h
    · cases h
    · obtain ⟨t, -, hdb⟩ := Option.map_eq_some_iff.mp h
      cases hdb
      exact enrollmentKept_of_eq rfl rfl
  | tokenRevoked id now h =>
    cases h
    exact enrollmentKept_of_eq rfl rfl
  | codeInserted row h =>
    unfold insertEnrollmentCode at h
    split at h
    · cases h
    · obtain ⟨t, ht, hdb⟩ := Option.map_eq_some_iff.mp h
      cases hdb
      refine ⟨fun hash c hc => ?_, rfl⟩
      change t.get? hash = some c
      have hne : row.codeHash ≠ hash := by
        rintro rfl
        rw [(Table.insert?_eq_some.mp ht).1] at hc
        cases hc
      rw [Table.get?_insert? ht, if_neg hne, hc]
  | deviceRevoked p now h =>
    cases h
    exact enrollmentKept_updateDevices s _ _ _ fun _ => rfl
  | deviceAttested deviceId verifiedAt h =>
    unfold attestDevice at h
    split at h
    · cases h
    · cases h
      exact enrollmentKept_updateDevices s _ _ _ fun _ => rfl
  | deviceSeen deviceId cutoff now h =>
    cases h
    exact enrollmentKept_updateDevices s _ _ _ fun _ => rfl

def Op.isEnroll : Op → Bool
  | admin op => op.isEnroll
  | _ => false

theorem enrolled_call (c : Call) (hop : c.op.isEnroll = false) (s : Db) :
    EnrollmentKept s (c.after P s) := by
  cases hadmin : c.op.isAdmin with
  | false => exact (accounts_call c hadmin s).enrollmentKept
  | true =>
    obtain ⟨op, faults⟩ := c
    cases op with
    | admin op =>
      exact Prog.exec_within enrollmentKept_refl (fun h k => h.trans k)
        ((within_admin P hop).mono fun _ _ => enrollmentKept_stmt) rfl
    | _ => cases hadmin

end Nod.Server
