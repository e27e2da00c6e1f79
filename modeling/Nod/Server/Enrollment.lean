import Nod.Lib.Machine
import Nod.Server.Acceptance
import Nod.Server.Accounts

/-
  Enrollment codes (`db/enrollment.rs`) under concurrent calls. A call of `enroll_device` checks its
  request and reads the clock, redeems the code in one writer transaction, and reads the answer back
  in four statements of their own; other calls come between any two of these.
  Proved: `enrollment_codes`, in every world a code has enrolled at most one device, for its own
  undeleted user and before its expiry, and a call that fails has left nothing behind exactly when
  no read of the answer went wrong in the run: no statement failed, the device and its user were
  still there, and the times of the rows could be read.
-/

namespace Nod.Server

open Lib Nod.Proto

variable (P : Packages)

/-! ## Redeeming a code -/

/-- A redemption that went through. -/
structure Redeems (env : Env) (codeHash : String) (push : PushRegistration)
    (key : DeviceSigningKeyRequest) (s : Db) (code : EnrollmentCodeRow) (user : UserRow)
    (r : Redeemed) (s' : Db) : Prop where
  stored : s.enrollmentCodes.get? codeHash = some code
  unused : code.consumedAt = none
  expiresAt : ∃ t, parseTime P code.expiresAt = .ok t ∧ env.now 0 < t
  owner : s.users.get? code.userId = some user
  live : user.deletedAt = none
  codes : ∀ h, s'.enrollmentCodes.get? h =
    if h = codeHash then some { code with consumedAt := some (env.nowString 0) }
    else s.enrollmentCodes.get? h
  devices : s'.devices.rows = s.devices.rows ++ [enrolledDevice P env code.userId push key]
  rest : s' = { s with enrollmentCodes := s'.enrollmentCodes, devices := s'.devices }
  redeemed : r = ⟨env.newId 0, code.userId, user.name, env.token⟩

theorem transactional_redeemCode (env : Env) (codeHash : String) (push : PushRegistration)
    (key : DeviceSigningKeyRequest) :
    Prog.Transactional (redeemCode P env codeHash push key) := by
  refine Prog.transactional_begin ?_
  refine Prog.committing_bind (Prog.txOnly_query _) fun code => ?_
  refine Prog.committing_bind (Prog.txOnly_lift _) fun code => ?_
  refine Prog.committing_bind (Prog.txOnly_lift _) fun expiresAt => ?_
  refine Prog.committing_bind (Prog.txOnly_lift _) fun _ => ?_
  refine Prog.committing_bind (Prog.txOnly_query _) fun userName => ?_
  refine Prog.committing_bind (Prog.txOnly_lift _) fun userName => ?_
  refine Prog.committing_bind (Prog.txOnly_onTx _) fun consumed => ?_
  refine Prog.committing_bind (Prog.txOnly_lift _) fun _ => ?_
  refine Prog.committing_bind (Prog.txOnly_onTx _) fun _ => ?_
  exact Prog.committing_commitTx _

variable {P}

theorem liveUserName_eq_some {userId name : String} {db : Db} :
    liveUserName userId db = some name ↔
      ∃ user, db.users.get? userId = some user ∧ user.deletedAt = none ∧ user.name = name := by
  unfold liveUserName
  rw [Option.map_eq_some_iff]
  constructor
  · rintro ⟨user, huser, rfl⟩
    obtain ⟨hget, hlive⟩ := Option.filter_eq_some_iff.mp huser
    exact ⟨user, hget, of_decide_eq_true hlive, rfl⟩
  · rintro ⟨user, hget, hlive, rfl⟩
    exact ⟨user, Option.filter_eq_some_iff.mpr ⟨hget, decide_eq_true hlive⟩, rfl⟩

/-- Marking a code that is open. -/
theorem get?_consumed {codeHash now : String} {s s' : Db} {n : Nat} {code : EnrollmentCodeRow}
    (h : consumeCode codeHash now s = some (n, s'))
    (hget : s.enrollmentCodes.get? codeHash = some code) (hunused : code.consumedAt = none)
    (hash : String) : s'.enrollmentCodes.get? hash =
      if hash = codeHash then some { code with consumedAt := some now }
      else s.enrollmentCodes.get? hash := by
  unfold consumeCode at h
  cases h
  rw [Table.get?_update]
  by_cases hhash : hash = codeHash
  · subst hhash
    have hkey := Table.key_of_get? hget
    rw [hget, Option.map_some, if_pos rfl, if_pos (by simp [hkey, hunused])]
  · rw [if_neg hhash]
    cases hother : s.enrollmentCodes.get? hash with
    | none => rfl
    | some other =>
      have hkey := Table.key_of_get? hother
      rw [Option.map_some, if_neg (by simp [hkey, hhash])]

theorem redeems_of_eval {env : Env} {codeHash : String} {push : PushRegistration}
    {key : DeviceSigningKeyRequest} {s s' : Db} {r : Redeemed}
    (h : Prog.eval databaseError (redeemCode P env codeHash push key) s = .ok (r, s')) :
    ∃ code user, Redeems P env codeHash push key s code user r s' := by
  simp only [redeemCode, Prog.eval_bind_eq_ok, Prog.eval_beginTx, Prog.eval_query, Prog.eval_commitTx,
    Prog.eval_lift_eq_ok, Prog.eval_onTx_eq_ok, Prog.eval_pure, Except.ok.injEq, Prod.mk.injEq] at h
  obtain ⟨_, _, ⟨_, rfl⟩, found, _, ⟨rfl, rfl⟩, code, _, ⟨hcode, rfl⟩, t, _, ⟨ht, rfl⟩, _, _,
    ⟨hopen, rfl⟩, name, _, ⟨rfl, rfl⟩, userName, _, ⟨hname, rfl⟩, consumed, s1, hconsumed, _, _,
    ⟨hmarked, rfl⟩, _, s2, hdevice, _, _, ⟨_, rfl⟩, rfl, rfl⟩ := h
  have hget := orElse_eq_ok.mp hcode
  obtain ⟨user, huser, hlive, huserName⟩ := liveUserName_eq_some.mp (orElse_eq_ok.mp hname)
  rw [refuseIf_eq_ok, not_or, not_not] at hopen
  have hmarkedCodes : s1 = { s with enrollmentCodes := s1.enrollmentCodes } := by
    cases hconsumed
    rfl
  unfold insertDevice at hdevice
  split at hdevice
  · cases hdevice
  · obtain ⟨devices, hdevices, hs⟩ := Option.map_eq_some_iff.mp hdevice
    cases hs
    refine ⟨code, user, hget, hopen.1, ⟨t, ht, Int.not_le.mp hopen.2⟩, huser, hlive, fun hash => ?_,
      ?_, ?_, ?_⟩
    · exact get?_consumed hconsumed hget hopen.1 hash
    · have hbefore : s1.devices = s.devices := by rw [hmarkedCodes]
      rw [(Table.insert?_eq_some.mp hdevices).2, hbefore]
    · rw [hmarkedCodes]
    · rw [huserName]

/-! ## Calls in progress -/

/-- Where a call of `enroll_device` is: a checked request waits for the transaction, then the device
    and its channels, the user and their devices are read. -/
inductive EnrollPhase where
  | redeeming (push : PushRegistration) (key : DeviceSigningKeyRequest)
  | readingDevice (redeemed : Redeemed)
  | readingChannels (redeemed : Redeemed) (userId : String)
  | readingUser (redeemed : Redeemed) (channels : List Channel)
  | readingDevices (redeemed : Redeemed) (channels : List Channel)
  | answered (response : EnrollDeviceResponse)
  | failed (error : ApiError)

structure EnrollTask where
  env : Env
  req : EnrollDeviceRequest
  phase : EnrollPhase

variable (P) in
def EnrollTask.codeHash (task : EnrollTask) : String := hashSecret P (Text.trim task.req.code)

variable (P) in
/-- The request is checked and the clock read before the store is asked anything. -/
def EnrollTask.start (env : Env) (req : EnrollDeviceRequest) : EnrollTask :=
  ⟨env, req, match checkedEnrollment P req with
    | .ok (push, key) => .redeeming push key
    | .error e => .failed e⟩

/-- An error ends the call. -/
def EnrollPhase.after {α : Type} (r : Except ApiError α × Db) (next : α → EnrollPhase) :
    EnrollPhase × Db :=
  match r.1 with
  | .ok a => (next a, r.2)
  | .error e => (.failed e, r.2)

variable (P) in
/-- The next transaction or statement of the call, with the failures of the store during it. -/
def EnrollTask.next (task : EnrollTask) (faults : List Bool) (db : Db) : EnrollPhase × Db :=
  match task.phase with
  | .redeeming push key =>
    EnrollPhase.after (Prog.exec databaseError (redeemCode P task.env (task.codeHash P) push key) faults db)
      .readingDevice
  | .readingDevice redeemed =>
    EnrollPhase.after (Prog.exec databaseError (getDevice P redeemed.deviceId) faults db)
      fun device => .readingChannels redeemed device.userId
  | .readingChannels redeemed userId =>
    EnrollPhase.after (Prog.exec databaseError (listChannelsForUser P userId) faults db)
      (.readingUser redeemed)
  | .readingUser redeemed channels =>
    EnrollPhase.after (Prog.exec databaseError (getUser P redeemed.userId) faults db)
      fun _ => .readingDevices redeemed channels
  | .readingDevices redeemed channels =>
    EnrollPhase.after
      (Prog.exec databaseError (selectUserDevices P redeemed.userId redeemed.deviceId) faults db)
      fun devices => .answered ⟨redeemed, channels, devices⟩
  | .answered _ => (task.phase, db)
  | .failed _ => (task.phase, db)

/-! ## Worlds -/

/-- A code and the device it enrolled, with the call that redeemed it. -/
structure EnrollmentRecord where
  task : Nat
  codeHash : String
  deviceId : String
  userId : String

/-- The database, the calls of `enroll_device` and the codes redeemed so far, the latest first. -/
structure EnrollWorld where
  db : Db
  tasks : List EnrollTask
  enrolled : List EnrollmentRecord

def EnrollWorld.empty : EnrollWorld := ⟨.empty, [], []⟩

inductive EnrollAct where
  | call (c : Call)
  | start (env : Env) (req : EnrollDeviceRequest)
  | next (i : Nat) (faults : List Bool)

variable (P) in
/-- A code is redeemed when its transaction has gone through. -/
def EnrollTask.record (i : Nat) (task : EnrollTask) (phase : EnrollPhase) : List EnrollmentRecord :=
  match task.phase, phase with
  | .redeeming _ _, .readingDevice r => [⟨i, task.codeHash P, r.deviceId, r.userId⟩]
  | _, _ => []

variable (P) in
def EnrollWorld.step (a : EnrollAct) (w : EnrollWorld) : EnrollWorld :=
  match a with
  | .call c => { w with db := c.after P w.db }
  | .start env req => { w with tasks := w.tasks ++ [EnrollTask.start P env req] }
  | .next i faults =>
    match w.tasks[i]? with
    | none => w
    | some task =>
      let r := task.next P faults w.db
      { db := r.2
        tasks := w.tasks.set i { task with phase := r.1 }
        enrolled := task.record P i r.1 ++ w.enrolled }

/-- Devices enroll through the calls in progress only. -/
def EnrollWorld.allows (a : EnrollAct) (_ : EnrollWorld) : Prop :=
  match a with
  | .call c => c.op.isEnroll = false
  | _ => True

variable (P) in
def enrollments : Machine EnrollWorld EnrollAct := ⟨EnrollWorld.step P, EnrollWorld.allows⟩

/-- Reading the answer goes well: the store works, the device has not been revoked since, nor the
    user deleted, and the times of the rows read can be read. -/
def EnrollPhase.readsBack (phase : EnrollPhase) (faults : List Bool) (db : Db) : Prop :=
  match phase with
  | .readingDevice r => faults.head? ≠ some true ∧
    ∃ device, db.devices.get? r.deviceId = some device ∧ device.revokedAt = none ∧ device.Readable
  | .readingChannels _ _ => faults.head? ≠ some true ∧ ∀ c ∈ db.channels.rows, Readable c.createdAt
  | .readingUser r _ => faults.head? ≠ some true ∧
    ∃ user, db.users.get? r.userId = some user ∧ user.deletedAt = none ∧ user.Readable
  | .readingDevices r _ => faults.head? ≠ some true ∧
    ∀ d ∈ db.devices.rows, d.userId = r.userId → d.revokedAt = none → d.Listable
  | _ => True

def EnrollWorld.readsBack (a : EnrollAct) (w : EnrollWorld) : Prop :=
  match a with
  | .next i faults => ∀ task, w.tasks[i]? = some task → task.phase.readsBack faults w.db
  | _ => True

variable (P) in
/-- The same steps, where every answer is read back. -/
def readBacks : Machine EnrollWorld EnrollAct := ⟨EnrollWorld.step P, EnrollWorld.readsBack⟩

/-! ## One step of a call -/

/-- What a call that is reading its answer has redeemed. -/
def EnrollPhase.reading : EnrollPhase → Option Redeemed
  | .readingDevice r => some r
  | .readingChannels r _ => some r
  | .readingUser r _ => some r
  | .readingDevices r _ => some r
  | _ => none

/-- While the answer is read the database stands, and the call fails when a read goes wrong. -/
theorem next_reading (task : EnrollTask) (faults : List Bool) (db : Db) {r : Redeemed}
    (h : task.phase.reading = some r) :
    (task.next P faults db).2 = db ∧
      (task.phase.readsBack faults db → (task.next P faults db).1.reading = some r ∨
        ∃ response, (task.next P faults db).1 = .answered response) ∧
      (¬ task.phase.readsBack faults db → ∃ e, (task.next P faults db).1 = .failed e) := by
  obtain ⟨env, req, phase⟩ := task
  unfold EnrollTask.next EnrollPhase.after
  cases phase with
  | redeeming push key => cases h
  | answered response => cases h
  | failed e => cases h
  | readingDevice r' =>
    cases h
    obtain ⟨row, hfault, hrow, hlive, hreadable, he⟩ | ⟨hwhy, e, he⟩ :=
      exec_getDevice (P := P) r.deviceId faults db
    · simp only [he]
      exact ⟨trivial, fun _ => Or.inl rfl, fun hbad =>
        absurd ⟨hfault, row, hrow, hlive, hreadable⟩ hbad⟩
    · simp only [he]
      refine ⟨trivial, fun hgood => ?_, fun _ => ⟨e, rfl⟩⟩
      exact absurd hwhy (not_or.mpr ⟨hgood.1, not_not.mpr hgood.2⟩)
  | readingChannels r' userId =>
    cases h
    obtain ⟨hfault, hall, channels, he⟩ | ⟨hwhy, e, he⟩ :=
      exec_listChannelsForUser (P := P) userId faults db
    · simp only [he]
      exact ⟨trivial, fun _ => Or.inl rfl, fun hbad => absurd ⟨hfault, hall⟩ hbad⟩
    · simp only [he]
      refine ⟨trivial, fun hgood => ?_, fun _ => ⟨e, rfl⟩⟩
      exact absurd hwhy (not_or.mpr ⟨hgood.1, not_not.mpr hgood.2⟩)
  | readingUser r' channels =>
    cases h
    obtain ⟨row, u, hfault, hrow, hlive, hreadable, he⟩ | ⟨hwhy, e, he⟩ :=
      exec_getUser (P := P) r.userId faults db
    · simp only [he]
      exact ⟨trivial, fun _ => Or.inl rfl, fun hbad =>
        absurd ⟨hfault, row, hrow, hlive, hreadable⟩ hbad⟩
    · simp only [he]
      refine ⟨trivial, fun hgood => ?_, fun _ => ⟨e, rfl⟩⟩
      exact absurd hwhy (not_or.mpr ⟨hgood.1, not_not.mpr hgood.2⟩)
  | readingDevices r' channels =>
    cases h
    obtain ⟨hfault, hall, devices, he⟩ | ⟨hwhy, e, he⟩ :=
      exec_selectUserDevices (P := P) r.userId r.deviceId faults db
    · simp only [he]
      exact ⟨trivial, fun _ => Or.inr ⟨_, rfl⟩, fun hbad => absurd ⟨hfault, hall⟩ hbad⟩
    · simp only [he]
      refine ⟨trivial, fun hgood => ?_, fun _ => ⟨e, rfl⟩⟩
      exact absurd hwhy (not_or.mpr ⟨hgood.1, not_not.mpr hgood.2⟩)

/-- A redemption goes through, or changes nothing and fails. -/
theorem next_redeeming {task : EnrollTask} {push : PushRegistration} {key : DeviceSigningKeyRequest}
    (h : task.phase = .redeeming push key) (faults : List Bool) (db : Db) :
    (∃ code user r, (task.next P faults db).1 = .readingDevice r ∧
      Redeems P task.env (task.codeHash P) push key db code user r (task.next P faults db).2) ∨
    ∃ e, task.next P faults db = (.failed e, db) := by
  have hnext : task.next P faults db = EnrollPhase.after
      (Prog.exec databaseError (redeemCode P task.env (task.codeHash P) push key) faults db)
      .readingDevice := by
    unfold EnrollTask.next
    rw [h]
  rcases Prog.exec_cases databaseError _
    (transactional_redeemCode P task.env (task.codeHash P) push key) faults db with
    ⟨e, he⟩ | ⟨r, db', hexec, heval⟩
  · refine Or.inr ⟨e, ?_⟩
    rw [hnext, he]
    rfl
  · obtain ⟨code, user, hredeems⟩ := redeems_of_eval heval
    refine Or.inl ⟨code, user, r, ?_, ?_⟩
    · rw [hnext, hexec]
      rfl
    · rw [hnext, hexec]
      exact hredeems

/-! ## A call that runs alone -/

variable (P) in
/-- What is left of `enroll_device` in each phase. -/
def EnrollTask.rest (task : EnrollTask) : Sql EnrollDeviceResponse :=
  match task.phase with
  | .redeeming push key => do
    let redeemed ← redeemCode P task.env (task.codeHash P) push key
    let channels ← listChannelsForDevice P redeemed.deviceId
    let devices ← listUserDevices P redeemed.userId redeemed.deviceId
    pure ⟨redeemed, channels, devices⟩
  | .readingDevice redeemed => do
    let channels ← listChannelsForDevice P redeemed.deviceId
    let devices ← listUserDevices P redeemed.userId redeemed.deviceId
    pure ⟨redeemed, channels, devices⟩
  | .readingChannels redeemed userId => do
    let channels ← listChannelsForUser P userId
    let devices ← listUserDevices P redeemed.userId redeemed.deviceId
    pure ⟨redeemed, channels, devices⟩
  | .readingUser redeemed channels => do
    let devices ← listUserDevices P redeemed.userId redeemed.deviceId
    pure ⟨redeemed, channels, devices⟩
  | .readingDevices redeemed channels => do
    let devices ← selectUserDevices P redeemed.userId redeemed.deviceId
    pure ⟨redeemed, channels, devices⟩
  | .answered response => pure response
  | .failed e => Prog.fail e

theorem rest_start (env : Env) (req : EnrollDeviceRequest) :
    (EnrollTask.start P env req).rest P = enrollDevice P env req := by
  unfold EnrollTask.start enrollDevice
  cases checkedEnrollment P req with
  | error e => rfl
  | ok checked => rfl

/-- On a store that works the program does the same alone as it does first of others. -/
def Plain {α : Type} (p : Sql α) : Prop :=
  ∀ db, (∃ a db', Prog.eval databaseError p db = .ok (a, db') ∧
      Prog.exec databaseError p [] db = (.ok a, db')) ∨
    ∃ e, Prog.eval databaseError p db = .error e ∧ Prog.exec databaseError p [] db = (.error e, db)

theorem plain_transactional {α : Type} {p : Sql α} (hp : Prog.Transactional p) : Plain p := by
  intro db
  cases heval : Prog.eval databaseError p db with
  | error e => exact Or.inr ⟨e, rfl, Prog.exec_nil_of_eval_error hp heval⟩
  | ok r => exact Or.inl ⟨r.1, r.2, rfl, Prog.exec_nil_of_eval hp heval⟩

theorem plain_poolLift {α β : Type} (f : Db → α) (g : α → Except ApiError β) :
    Plain ((Prog.onPool fun db => some (f db, db)) >>= fun a => Prog.lift (g a)) := by
  intro db
  have hexec := exec_poolLift f g [] db
  have heval : Prog.eval databaseError
      ((Prog.onPool fun db => some (f db, db)) >>= fun a => Prog.lift (g a)) db =
        Prog.eval databaseError (Prog.lift (g (f db))) db := rfl
  rw [heval, hexec]
  cases g (f db) with
  | error e => exact Or.inr ⟨e, rfl, rfl⟩
  | ok b => exact Or.inl ⟨b, db, rfl, rfl⟩

theorem plain_readRow {α β : Type} (f : Db → Option α) (p : α → Bool) (g : α → Except ApiError β) :
    Plain (do
      let row ← Prog.onPool fun db => some (f db, db)
      let row ← Prog.lift (orElse ApiError.notFound (row.filter p))
      Prog.lift (g row)) := by
  have hprog : (do
      let row ← Prog.onPool fun db => some (f db, db)
      let row ← Prog.lift (orElse ApiError.notFound (row.filter p))
      Prog.lift (g row) : Sql β) = (Prog.onPool fun db => some (f db, db)) >>= fun row =>
        Prog.lift (orElse ApiError.notFound (row.filter p) >>= g) :=
    congrArg (Prog.stmt Handle.pool _) (funext fun row => Prog.lift_bind_lift _ g)
  rw [hprog]
  exact plain_poolLift f fun row => orElse ApiError.notFound (row.filter p) >>= g

theorem plain_readRows {α β : Type} (f : Db → List α) (g : α → Except ApiError β) :
    Plain (do
      let rows ← Prog.onPool fun db => some (f db, db)
      Prog.lift (rows.mapM g)) :=
  plain_poolLift f fun rows => rows.mapM g

theorem plain_getDevice (deviceId : String) : Plain (getDevice P deviceId) :=
  plain_readRow (fun db => db.devices.get? deviceId) (fun d => d.revokedAt = none) (rowToDevice P)

theorem plain_getUser (userId : String) : Plain (getUser P userId) :=
  plain_readRow (fun db => db.users.get? userId) (fun u => u.deletedAt = none) (rowToUser P)

theorem plain_listChannelsForUser (userId : String) : Plain (listChannelsForUser P userId) :=
  plain_readRows (channelsForUser userId) fun row => rowToChannel P row.1 row.2

theorem plain_selectUserDevices (userId currentDeviceId : String) :
    Plain (selectUserDevices P userId currentDeviceId) :=
  plain_readRows (devicesOfUser userId) (rowToUserDevice P currentDeviceId)

/-- A step that runs the first program of what is left leaves what comes after it. -/
theorem eval_after {α : Type} {p : Sql α} (hp : Plain p) (env : Env) (req : EnrollDeviceRequest)
    (next : α → EnrollPhase) (db : Db) :
    let r := EnrollPhase.after (Prog.exec databaseError p [] db) next
    Prog.eval databaseError (p >>= fun a => EnrollTask.rest P ⟨env, req, next a⟩) db =
      Prog.eval databaseError (EnrollTask.rest P ⟨env, req, r.1⟩) r.2 := by
  intro r
  rw [Prog.eval_bind]
  obtain ⟨a, db', heval, hexec⟩ | ⟨e, heval, hexec⟩ := hp db
  · have hr : r = (next a, db') := congrArg (EnrollPhase.after · next) hexec
    rw [heval, hr]
  · have hr : r = (.failed e, db) := congrArg (EnrollPhase.after · next) hexec
    rw [heval, hr]
    rfl

/-- On a store that works, a step of a call takes what is left of it one step further. -/
theorem eval_rest (task : EnrollTask) (db : Db) :
    Prog.eval databaseError (task.rest P) db =
      Prog.eval databaseError
        (EnrollTask.rest P { task with phase := (task.next P [] db).1 }) (task.next P [] db).2 := by
  obtain ⟨env, req, phase⟩ := task
  cases phase with
  | answered response => rfl
  | failed e => rfl
  | redeeming push key =>
    exact eval_after (plain_transactional (transactional_redeemCode P env
      (EnrollTask.codeHash P ⟨env, req, .redeeming push key⟩) push key)) env req .readingDevice db
  | readingDevice r =>
    have hassoc : EnrollTask.rest P ⟨env, req, .readingDevice r⟩ =
        getDevice P r.deviceId >>= fun device =>
          EnrollTask.rest P ⟨env, req, .readingChannels r device.userId⟩ := Prog.bind_assoc _ _ _
    rw [hassoc]
    exact eval_after (plain_getDevice r.deviceId) env req
      (fun device => .readingChannels r device.userId) db
  | readingChannels r userId =>
    exact eval_after (plain_listChannelsForUser userId) env req (.readingUser r) db
  | readingUser r channels =>
    have hassoc : EnrollTask.rest P ⟨env, req, .readingUser r channels⟩ =
        getUser P r.userId >>= fun _ =>
          EnrollTask.rest P ⟨env, req, .readingDevices r channels⟩ := Prog.bind_assoc _ _ _
    rw [hassoc]
    exact eval_after (plain_getUser r.userId) env req (fun _ => .readingDevices r channels) db
  | readingDevices r channels =>
    exact eval_after (plain_selectUserDevices r.userId r.deviceId) env req
      (fun devices => .answered ⟨r, channels, devices⟩) db

variable (P) in
/-- So many steps of a call, with nothing between them. -/
def EnrollTask.alone (task : EnrollTask) (db : Db) : Nat → EnrollPhase × Db
  | 0 => (task.phase, db)
  | n + 1 =>
    EnrollTask.alone { task with phase := (task.next P [] db).1 } (task.next P [] db).2 n

/-- How many steps a call has left at most. -/
def EnrollPhase.left : EnrollPhase → Nat
  | .redeeming _ _ => 5
  | .readingDevice _ => 4
  | .readingChannels _ _ => 3
  | .readingUser _ _ => 2
  | .readingDevices _ _ => 1
  | .answered _ => 0
  | .failed _ => 0

theorem left_after {α : Type} {n : Nat} (r : Except ApiError α × Db) {next : α → EnrollPhase}
    (hnext : ∀ a, (next a).left ≤ n) : (EnrollPhase.after r next).1.left ≤ n := by
  unfold EnrollPhase.after
  cases r.1 with
  | ok a => exact hnext a
  | error e => exact Nat.zero_le n

theorem left_next {task : EnrollTask} {db : Db} {n : Nat} (h : task.phase.left ≤ n + 1) :
    (task.next P [] db).1.left ≤ n := by
  obtain ⟨env, req, phase⟩ := task
  refine Nat.le_trans ?_ (Nat.pred_le_pred h)
  cases phase with
  | answered response => exact Nat.le_refl 0
  | failed e => exact Nat.le_refl 0
  | redeeming push key => exact left_after _ fun _ => Nat.le_refl 4
  | readingDevice r => exact left_after _ fun _ => Nat.le_refl 3
  | readingChannels r userId => exact left_after _ fun _ => Nat.le_refl 2
  | readingUser r channels => exact left_after _ fun _ => Nat.le_refl 1
  | readingDevices r channels => exact left_after _ fun _ => Nat.le_refl 0

/-- The answer or the error of a call that is over. -/
def EnrollPhase.outcome : EnrollPhase → Option (Except ApiError EnrollDeviceResponse)
  | .answered response => some (.ok response)
  | .failed e => some (.error e)
  | _ => none

theorem eval_alone {task : EnrollTask} {db : Db} {n : Nat} (h : task.phase.left ≤ n) :
    (task.alone P db n).1.outcome =
      some ((Prog.eval databaseError (task.rest P) db).map Prod.fst) := by
  induction n generalizing task db with
  | zero =>
    obtain ⟨env, req, phase⟩ := task
    cases phase with
    | answered response => rfl
    | failed e => rfl
    | redeeming push key => cases h
    | readingDevice r => cases h
    | readingChannels r userId => cases h
    | readingUser r channels => cases h
    | readingDevices r channels => cases h
  | succ n ih =>
    rw [eval_rest]
    exact ih (left_next h)

variable (P) in
/-- The steps of a call with nothing between them end as `enroll_device` does. -/
theorem alone_enrollDevice (env : Env) (req : EnrollDeviceRequest) (db : Db) :
    ((EnrollTask.start P env req).alone P db 5).1.outcome =
      some ((Prog.eval databaseError (enrollDevice P env req) db).map Prod.fst) := by
  have hleft : (EnrollTask.start P env req).phase.left ≤ 5 := by
    unfold EnrollTask.start
    cases checkedEnrollment P req with
    | error e => exact Nat.zero_le 5
    | ok checked => exact Nat.le_refl 5
  rw [eval_alone hleft, rest_start]

/-! ## One step of a world -/

variable (P) in
/-- What an allowed action does. -/
inductive EnrollStep (w : EnrollWorld) : EnrollAct → EnrollWorld → Prop
  | called {c : Call} {db : Db} (hkept : EnrollmentKept w.db db) :
    EnrollStep w (.call c) { w with db := db }
  | started (env : Env) (req : EnrollDeviceRequest) :
    EnrollStep w (.start env req) { w with tasks := w.tasks ++ [EnrollTask.start P env req] }
  | idle {i : Nat} (faults : List Bool) (hnone : w.tasks[i]? = none) : EnrollStep w (.next i faults) w
  | redeemed {i : Nat} (faults : List Bool) {task : EnrollTask} {push : PushRegistration}
    {key : DeviceSigningKeyRequest} {code : EnrollmentCodeRow} {user : UserRow} {r : Redeemed} {db : Db}
    (htask : w.tasks[i]? = some task) (hphase : task.phase = .redeeming push key)
    (hredeems : Redeems P task.env (task.codeHash P) push key w.db code user r db) :
    EnrollStep w (.next i faults)
      ⟨db, w.tasks.set i { task with phase := .readingDevice r },
        ⟨i, task.codeHash P, r.deviceId, r.userId⟩ :: w.enrolled⟩
  | refused {i : Nat} (faults : List Bool) {task : EnrollTask} {push : PushRegistration}
    {key : DeviceSigningKeyRequest} (e : ApiError) (htask : w.tasks[i]? = some task)
    (hphase : task.phase = .redeeming push key) :
    EnrollStep w (.next i faults) { w with tasks := w.tasks.set i { task with phase := .failed e } }
  | read {i : Nat} (faults : List Bool) {task : EnrollTask} {r : Redeemed} {phase : EnrollPhase}
    (htask : w.tasks[i]? = some task) (hreading : task.phase.reading = some r)
    (hgood : task.phase.readsBack faults w.db → phase.reading = some r ∨
      ∃ response, phase = .answered response)
    (hbad : ¬ task.phase.readsBack faults w.db → ∃ e, phase = .failed e) :
    EnrollStep w (.next i faults) { w with tasks := w.tasks.set i { task with phase := phase } }
  | ended {i : Nat} (faults : List Bool) {task : EnrollTask} (htask : w.tasks[i]? = some task)
    (hover : (∃ response, task.phase = .answered response) ∨ ∃ e, task.phase = .failed e) :
    EnrollStep w (.next i faults) w

theorem step_next {i : Nat} {w : EnrollWorld} {task : EnrollTask} (faults : List Bool)
    (htask : w.tasks[i]? = some task) : w.step P (.next i faults) =
      ⟨(task.next P faults w.db).2, w.tasks.set i { task with phase := (task.next P faults w.db).1 },
        task.record P i (task.next P faults w.db).1 ++ w.enrolled⟩ := by
  change (match w.tasks[i]? with
    | none => w
    | some task => _) = _
  rw [htask]

/-- A call that is over stays as it is. -/
theorem step_over {i : Nat} {w : EnrollWorld} {task : EnrollTask} (faults : List Bool)
    (htask : w.tasks[i]? = some task) (hnext : task.next P faults w.db = (task.phase, w.db))
    (hrecord : task.record P i task.phase = []) : w.step P (.next i faults) = w := by
  obtain ⟨hlt, hget⟩ := List.getElem?_eq_some_iff.mp htask
  have hset : w.tasks.set i task = w.tasks := by
    rw [← hget]
    exact List.set_getElem_self hlt
  rw [step_next faults htask, hnext, hrecord]
  change EnrollWorld.mk w.db (w.tasks.set i task) w.enrolled = w
  rw [hset]

theorem read_step {i : Nat} {w : EnrollWorld} {task : EnrollTask} (faults : List Bool)
    (htask : w.tasks[i]? = some task) {r : Redeemed} (hreading : task.phase.reading = some r) :
    EnrollStep P w (.next i faults) (w.step P (.next i faults)) := by
  obtain ⟨hdb, hgood, hbad⟩ := next_reading (P := P) task faults w.db hreading
  have hrecord : task.record P i (task.next P faults w.db).1 = [] := by
    unfold EnrollTask.record
    cases hphase : task.phase with
    | redeeming push key =>
      rw [hphase] at hreading
      cases hreading
    | _ => rfl
  rw [step_next faults htask, hdb, hrecord]
  exact .read faults htask hreading hgood hbad

theorem enrollStep (a : EnrollAct) (w : EnrollWorld) (hallowed : w.allows a) :
    EnrollStep P w a (w.step P a) := by
  cases a with
  | call c => exact .called (enrolled_call c hallowed w.db)
  | start env req => exact .started env req
  | next i faults =>
    cases htask : w.tasks[i]? with
    | none =>
      have hstep : w.step P (.next i faults) = w := by
        change (match w.tasks[i]? with
          | none => w
          | some task => _) = w
        rw [htask]
      rw [hstep]
      exact .idle faults htask
    | some task =>
      cases hphase : task.phase with
      | redeeming push key =>
        rw [step_next faults htask]
        rcases next_redeeming (P := P) hphase faults w.db with
          ⟨code, user, r, hnext, hredeems⟩ | ⟨e, hnext⟩
        · have hrecord : task.record P i (.readingDevice r) =
              [⟨i, task.codeHash P, r.deviceId, r.userId⟩] := by
            unfold EnrollTask.record
            rw [hphase]
          rw [hnext, hrecord]
          exact .redeemed faults htask hphase hredeems
        · have hrecord : task.record P i (.failed e) = [] := by
            unfold EnrollTask.record
            rw [hphase]
          rw [hnext, hrecord]
          exact .refused faults e htask hphase
      | answered response =>
        rw [step_over faults htask]
        · exact .ended faults htask (Or.inl ⟨response, hphase⟩)
        · unfold EnrollTask.next
          rw [hphase]
        · unfold EnrollTask.record
          rw [hphase]
      | failed e =>
        rw [step_over faults htask]
        · exact .ended faults htask (Or.inr ⟨e, hphase⟩)
        · unfold EnrollTask.next
          rw [hphase]
        · unfold EnrollTask.record
          rw [hphase]
      | readingDevice r => exact read_step faults htask (by rw [hphase]; rfl)
      | readingChannels r userId => exact read_step faults htask (by rw [hphase]; rfl)
      | readingUser r channels => exact read_step faults htask (by rw [hphase]; rfl)
      | readingDevices r channels => exact read_step faults htask (by rw [hphase]; rfl)

/-! ## Every enrollment has its code -/

/-- Past the transaction. -/
def EnrollPhase.past : EnrollPhase → Bool
  | .redeeming _ _ => false
  | _ => true

/-- Calls in progress go on under their clock and request, and none goes back to its transaction. -/
def GoOn (tasks tasks' : List EnrollTask) : Prop :=
  ∀ (i : Nat) (task : EnrollTask), tasks[i]? = some task →
    ∃ task' : EnrollTask, tasks'[i]? = some task' ∧ task'.env = task.env ∧ task'.req = task.req ∧
      (task.phase.past = true → task'.phase.past = true)

theorem goOn_refl (tasks : List EnrollTask) : GoOn tasks tasks :=
  fun _ task h => ⟨task, h, rfl, rfl, fun hpast => hpast⟩

theorem goOn_append (tasks : List EnrollTask) (task : EnrollTask) : GoOn tasks (tasks ++ [task]) := by
  intro i old hi
  obtain ⟨hlt, -⟩ := List.getElem?_eq_some_iff.mp hi
  exact ⟨old, by rw [List.getElem?_append_left hlt, hi], rfl, rfl, fun hpast => hpast⟩

theorem goOn_set {tasks : List EnrollTask} {i : Nat} {task : EnrollTask} {phase : EnrollPhase}
    (htask : tasks[i]? = some task) (hphase : phase.past = true) :
    GoOn tasks (tasks.set i { task with phase := phase }) := by
  intro j old hj
  obtain ⟨hlt, -⟩ := List.getElem?_eq_some_iff.mp htask
  by_cases hij : i = j
  · subst hij
    rw [htask] at hj
    cases hj
    exact ⟨_, List.getElem?_set_self hlt, rfl, rfl, fun _ => hphase⟩
  · exact ⟨old, by rw [List.getElem?_set_ne hij, hj], rfl, rfl, fun hpast => hpast⟩

theorem past_of_reading {phase : EnrollPhase} {r : Redeemed} (h : phase.reading = some r) :
    phase.past = true := by
  cases phase with
  | redeeming push key => cases h
  | _ => rfl

/-- A reading call stays past its transaction. -/
theorem past_read {task : EnrollTask} {faults : List Bool} {db : Db} {r : Redeemed}
    {phase : EnrollPhase}
    (hgood : task.phase.readsBack faults db → phase.reading = some r ∨
      ∃ response, phase = .answered response)
    (hbad : ¬ task.phase.readsBack faults db → ∃ e, phase = .failed e) : phase.past = true := by
  by_cases hback : task.phase.readsBack faults db
  · rcases hgood hback with hreading | ⟨response, rfl⟩
    · exact past_of_reading hreading
    · rfl
  · obtain ⟨e, rfl⟩ := hbad hback
    rfl

variable (P) in
/-- The call that redeemed a code: its clock was read before the code expired, and the code is marked
    with that reading. -/
structure CodeBacked (w : EnrollWorld) (e : EnrollmentRecord) (task : EnrollTask)
    (code : EnrollmentCodeRow) : Prop where
  byTask : w.tasks[e.task]? = some task
  past : task.phase.past = true
  codeHash : e.codeHash = task.codeHash P
  device : e.deviceId = task.env.newId 0
  stored : w.db.enrollmentCodes.get? e.codeHash = some code
  owner : code.userId = e.userId
  consumed : code.consumedAt = some (task.env.nowString 0)
  early : ∃ t, parseTime P code.expiresAt = .ok t ∧ task.env.now 0 < t

variable (P) in
structure Enrolling (w : EnrollWorld) : Prop where
  once : (w.enrolled.map EnrollmentRecord.codeHash).Nodup
  devices : w.db.devices.rows.map (fun d => (d.id, d.userId)) =
    (w.enrolled.map fun e => (e.deviceId, e.userId)).reverse
  backed : ∀ e ∈ w.enrolled, ∃ task code, CodeBacked P w e task code
  reading : ∀ (i : Nat) (task : EnrollTask) (r : Redeemed), w.tasks[i]? = some task →
    task.phase.reading = some r →
      ∃ e ∈ w.enrolled, e.task = i

theorem enrolling_empty : Enrolling P EnrollWorld.empty :=
  ⟨List.nodup_nil, rfl, fun _ h => absurd h List.not_mem_nil, fun i task r h => by
    rw [show EnrollWorld.empty.tasks[i]? = none from List.getElem?_nil] at h
    cases h⟩

/-- Marked codes stay, so what was redeemed stays redeemed. -/
theorem CodeBacked.keep {w w' : EnrollWorld} {e : EnrollmentRecord} {task : EnrollTask}
    {code : EnrollmentCodeRow} (h : CodeBacked P w e task code) (htasks : GoOn w.tasks w'.tasks)
    (hcodes : ∀ hash c, w.db.enrollmentCodes.get? hash = some c → c.consumedAt ≠ none →
      w'.db.enrollmentCodes.get? hash = some c) : ∃ task' code', CodeBacked P w' e task' code' := by
  obtain ⟨task', htask', henv, hreq, hpast⟩ := htasks e.task task h.byTask
  have hconsumed : code.consumedAt ≠ none := by
    rw [h.consumed]
    exact Option.some_ne_none _
  refine ⟨task', code, htask', hpast h.past, ?_, ?_, hcodes _ _ h.stored hconsumed, h.owner, ?_, ?_⟩
  · rw [h.codeHash]
    unfold EnrollTask.codeHash
    rw [hreq]
  · rw [h.device, henv]
  · rw [h.consumed, henv]
  · rw [henv]
    exact h.early

/-- An open code has enrolled nothing. -/
theorem Enrolling.not_enrolled {w : EnrollWorld} (h : Enrolling P w) {hash : String}
    {code : EnrollmentCodeRow} (hcode : w.db.enrollmentCodes.get? hash = some code)
    (hunused : code.consumedAt = none) : hash ∉ w.enrolled.map EnrollmentRecord.codeHash := by
  intro hmem
  obtain ⟨e, he, rfl⟩ := List.mem_map.mp hmem
  obtain ⟨task, code', hbacked⟩ := h.backed e he
  have hsame := hbacked.stored
  rw [hcode] at hsame
  cases hsame
  rw [hbacked.consumed] at hunused
  cases hunused

/-- A world whose codes and devices stand and whose calls go on. -/
theorem Enrolling.goOn {w w' : EnrollWorld} (h : Enrolling P w) (henrolled : w'.enrolled = w.enrolled)
    (hkept : EnrollmentKept w.db w'.db) (htasks : GoOn w.tasks w'.tasks)
    (hreading : ∀ (i : Nat) (task : EnrollTask) (r : Redeemed), w'.tasks[i]? = some task →
      task.phase.reading = some r → ∃ e ∈ w.enrolled, e.task = i) : Enrolling P w' := by
  refine ⟨?_, ?_, fun e he => ?_, ?_⟩
  · rw [henrolled]
    exact h.once
  · rw [henrolled, hkept.devices]
    exact h.devices
  · rw [henrolled] at he
    obtain ⟨task, code, hbacked⟩ := h.backed e he
    exact hbacked.keep htasks fun hash c hc _ => hkept.codes hash c hc
  · rw [henrolled]
    exact hreading

/-- The call whose phase was set reads its answer only if it did before. -/
theorem reading_set {tasks : List EnrollTask} {i j : Nat} {task task' : EnrollTask}
    {phase : EnrollPhase} {r : Redeemed} (htask : tasks[i]? = some task)
    (hj : (tasks.set i { task with phase := phase })[j]? = some task')
    (hreading : task'.phase.reading = some r) :
    (j = i ∧ phase.reading = some r) ∨ (j ≠ i ∧ tasks[j]? = some task') := by
  obtain ⟨hlt, -⟩ := List.getElem?_eq_some_iff.mp htask
  by_cases hij : i = j
  · subst hij
    rw [List.getElem?_set_self hlt] at hj
    cases hj
    exact Or.inl ⟨rfl, hreading⟩
  · rw [List.getElem?_set_ne hij] at hj
    exact Or.inr ⟨fun h => hij h.symm, hj⟩

theorem enrolling_step {a : EnrollAct} {w w' : EnrollWorld} (h : Enrolling P w)
    (hstep : EnrollStep P w a w') : Enrolling P w' := by
  cases hstep with
  | called hkept => exact h.goOn rfl hkept (goOn_refl _) h.reading
  | started env req =>
    refine h.goOn rfl (enrollmentKept_refl _) (goOn_append _ _) fun i task r hi hreading => ?_
    by_cases hlt : i < w.tasks.length
    · rw [List.getElem?_append_left hlt] at hi
      exact h.reading i task r hi hreading
    · rw [List.getElem?_append_right (Nat.le_of_not_lt hlt), List.getElem?_singleton] at hi
      split at hi
      · cases hi
        unfold EnrollTask.start at hreading
        cases hchecked : checkedEnrollment P req with
        | error e =>
          rw [hchecked] at hreading
          cases hreading
        | ok checked =>
          rw [hchecked] at hreading
          cases hreading
      · cases hi
  | idle faults hnone => exact h
  | @redeemed i faults task push key code user r db htask hphase hredeems =>
    refine ⟨?_, ?_, fun e he => ?_, fun j task' r' hj hreading => ?_⟩
    · exact List.nodup_cons.mpr ⟨h.not_enrolled hredeems.stored hredeems.unused, h.once⟩
    · change db.devices.rows.map _ =
        (_ :: w.enrolled.map fun e => (e.deviceId, e.userId)).reverse
      rw [hredeems.devices, List.map_append, h.devices, List.reverse_cons, hredeems.redeemed]
      rfl
    · rcases List.mem_cons.mp he with rfl | he
      · refine ⟨_, { code with consumedAt := some (task.env.nowString 0) },
          ⟨List.getElem?_set_self (List.getElem?_eq_some_iff.mp htask).1, rfl, rfl, ?_, ?_, ?_, rfl,
            hredeems.expiresAt⟩⟩
        · rw [hredeems.redeemed]
        · exact (hredeems.codes _).trans (if_pos rfl)
        · rw [hredeems.redeemed]
      · obtain ⟨task', code', hbacked⟩ := h.backed e he
        refine hbacked.keep (goOn_set htask rfl) fun hash c hc hconsumed => ?_
        change db.enrollmentCodes.get? hash = some c
        rw [hredeems.codes, if_neg]
        · exact hc
        · rintro rfl
          rw [hredeems.stored] at hc
          cases hc
          exact hconsumed hredeems.unused
    · rcases reading_set htask hj hreading with ⟨rfl, -⟩ | ⟨-, hold⟩
      · exact ⟨_, List.mem_cons_self, rfl⟩
      · obtain ⟨e, he, hindex⟩ := h.reading j task' r' hold hreading
        exact ⟨e, List.mem_cons_of_mem _ he, hindex⟩
  | @refused i faults task push key e htask hphase =>
    refine h.goOn rfl (enrollmentKept_refl _) (goOn_set htask rfl) fun j task' r hj hreading => ?_
    rcases reading_set htask hj hreading with ⟨-, hnone⟩ | ⟨-, hold⟩
    · cases hnone
    · exact h.reading j task' r hold hreading
  | @read i faults task r phase htask hreading hgood hbad =>
    refine h.goOn rfl (enrollmentKept_refl _) (goOn_set htask (past_read hgood hbad))
      fun j task' r' hj hreading' => ?_
    rcases reading_set htask hj hreading' with ⟨rfl, -⟩ | ⟨-, hold⟩
    · exact h.reading j task r htask hreading
    · exact h.reading j task' r' hold hreading'
  | ended faults htask hover => exact h

theorem enrolling_run {acts : List EnrollAct} {w : EnrollWorld} (h : Enrolling P w)
    (hlegal : (enrollments P).Legal acts w) : Enrolling P ((enrollments P).run acts w) :=
  Machine.invariant (M := enrollments P) (I := Enrolling P)
    (fun a w hw hallowed => enrolling_step hw (enrollStep a w hallowed)) h hlegal

/-! ## Calls that fail -/

/-- A call that failed has enrolled no device, and so has changed nothing. -/
def EnrollWorld.NothingLeft (w : EnrollWorld) : Prop :=
  ∀ (i : Nat) (task : EnrollTask) (e : ApiError), w.tasks[i]? = some task → task.phase = .failed e →
    ∀ entry ∈ w.enrolled, entry.task ≠ i

theorem nothingLeft_empty : EnrollWorld.empty.NothingLeft :=
  fun _ _ _ _ _ _ h => absurd h List.not_mem_nil

/-- The call whose phase was set has failed only if it was set to that. -/
theorem failed_set {tasks : List EnrollTask} {i j : Nat} {task task' : EnrollTask}
    {phase : EnrollPhase} {e : ApiError} (htask : tasks[i]? = some task)
    (hj : (tasks.set i { task with phase := phase })[j]? = some task') (hfailed : task'.phase = .failed e) :
    (j = i ∧ phase = .failed e) ∨ (j ≠ i ∧ tasks[j]? = some task') := by
  obtain ⟨hlt, -⟩ := List.getElem?_eq_some_iff.mp htask
  by_cases hij : i = j
  · subst hij
    rw [List.getElem?_set_self hlt] at hj
    cases hj
    exact Or.inl ⟨rfl, hfailed⟩
  · rw [List.getElem?_set_ne hij] at hj
    exact Or.inr ⟨fun h => hij h.symm, hj⟩

theorem nothingLeft_step {a : EnrollAct} {w w' : EnrollWorld} (h : Enrolling P w)
    (hstep : EnrollStep P w a w') (hback : w.readsBack a) (hleft : w.NothingLeft) :
    w'.NothingLeft := by
  cases hstep with
  | called hkept => exact hleft
  | started env req =>
    intro i task e hi hfailed entry hentry
    by_cases hlt : i < w.tasks.length
    · rw [List.getElem?_append_left hlt] at hi
      exact hleft i task e hi hfailed entry hentry
    · obtain ⟨task', code, hbacked⟩ := h.backed entry hentry
      obtain ⟨hindex, -⟩ := List.getElem?_eq_some_iff.mp hbacked.byTask
      rintro rfl
      exact hlt hindex
  | idle faults hnone => exact hleft
  | @redeemed i faults task push key code user r db htask hphase hredeems =>
    intro j task' e hj hfailed entry hentry
    rcases failed_set htask hj hfailed with ⟨-, hnone⟩ | ⟨hne, hold⟩
    · cases hnone
    · rcases List.mem_cons.mp hentry with rfl | hentry
      · exact fun heq => hne heq.symm
      · exact hleft j task' e hold hfailed entry hentry
  | @refused i faults task push key e htask hphase =>
    intro j task' e' hj hfailed entry hentry
    rcases failed_set htask hj hfailed with ⟨rfl, -⟩ | ⟨-, hold⟩
    · rintro rfl
      -- what this call redeemed would put it past its transaction
      obtain ⟨task', code, hbacked⟩ := h.backed entry hentry
      have hsame := hbacked.byTask
      rw [htask] at hsame
      cases hsame
      have hpast := hbacked.past
      rw [hphase] at hpast
      cases hpast
    · exact hleft j task' e' hold hfailed entry hentry
  | @read i faults task r phase htask hreading hgood hbad =>
    intro j task' e hj hfailed entry hentry
    rcases failed_set htask hj hfailed with ⟨-, hphase⟩ | ⟨-, hold⟩
    · rcases hgood (hback task htask) with hagain | ⟨response, hanswered⟩
      · rw [hphase] at hagain
        cases hagain
      · rw [hphase] at hanswered
        cases hanswered
    · exact hleft j task' e hold hfailed entry hentry
  | ended faults htask hover => exact hleft

/-- A read of the answer that goes wrong fails a call that has enrolled a device. -/
theorem left_of_not_readsBack {a : EnrollAct} {w w' : EnrollWorld} (h : Enrolling P w)
    (hstep : EnrollStep P w a w') (hback : ¬ w.readsBack a) : ¬ w'.NothingLeft := by
  cases hstep with
  | called hkept => exact absurd trivial hback
  | started env req => exact absurd trivial hback
  | idle faults hnone =>
    refine absurd (fun task htask => ?_) hback
    rw [hnone] at htask
    cases htask
  | @redeemed i faults task push key code user r db htask hphase hredeems =>
    refine absurd (fun task' htask' => ?_) hback
    rw [htask] at htask'
    cases htask'
    rw [hphase]
    trivial
  | @refused i faults task push key e htask hphase =>
    refine absurd (fun task' htask' => ?_) hback
    rw [htask] at htask'
    cases htask'
    rw [hphase]
    trivial
  | @read i faults task r phase htask hreading hgood hbad =>
    have hwrong : ¬ task.phase.readsBack faults w.db := fun hok => hback fun task' htask' => by
      rw [htask] at htask'
      cases htask'
      exact hok
    obtain ⟨e, hphase⟩ := hbad hwrong
    obtain ⟨entry, hentry, hindex⟩ := h.reading i task r htask hreading
    intro hleft
    exact hleft i _ e (List.getElem?_set_self (List.getElem?_eq_some_iff.mp htask).1) hphase entry hentry
      hindex
  | @ended i faults task htask hover =>
    refine absurd (fun task' htask' => ?_) hback
    rw [htask] at htask'
    cases htask'
    rcases hover with ⟨response, hphase⟩ | ⟨e, hphase⟩
    · rw [hphase]
      trivial
    · rw [hphase]
      trivial

/-- A call that has failed stays so, and what is enrolled stays enrolled. -/
theorem nothingLeft_back {a : EnrollAct} {w w' : EnrollWorld} (hstep : EnrollStep P w a w')
    (hleft : w'.NothingLeft) : w.NothingLeft := by
  intro i task e hi hfailed entry hentry
  have hset : ∀ {j : Nat} {task' : EnrollTask} {phase : EnrollPhase}, w.tasks[j]? = some task' →
      task'.phase ≠ .failed e →
        (w.tasks.set j { task' with phase := phase })[i]? = some task := by
    intro j task' phase hj hphase
    have hne : j ≠ i := by
      rintro rfl
      rw [hi] at hj
      cases hj
      exact hphase hfailed
    rw [List.getElem?_set_ne hne, hi]
  cases hstep with
  | called hkept => exact hleft i task e hi hfailed entry hentry
  | started env req =>
    obtain ⟨hlt, -⟩ := List.getElem?_eq_some_iff.mp hi
    refine hleft i task e ?_ hfailed entry hentry
    change (w.tasks ++ [_])[i]? = some task
    rw [List.getElem?_append_left hlt, hi]
  | idle faults hnone => exact hleft i task e hi hfailed entry hentry
  | redeemed faults htask hphase hredeems =>
    refine hleft i task e (hset htask fun h => ?_) hfailed entry (List.mem_cons_of_mem _ hentry)
    rw [hphase] at h
    cases h
  | refused faults e' htask hphase =>
    refine hleft i task e (hset htask fun h => ?_) hfailed entry hentry
    rw [hphase] at h
    cases h
  | read faults htask hreading hgood hbad =>
    refine hleft i task e (hset htask fun h => ?_) hfailed entry hentry
    rw [h] at hreading
    cases hreading
  | ended faults htask hover => exact hleft i task e hi hfailed entry hentry

theorem nothingLeft_run {acts : List EnrollAct} {w : EnrollWorld} (h : Enrolling P w)
    (hlegal : (enrollments P).Legal acts w) (hleft : ((enrollments P).run acts w).NothingLeft) :
    w.NothingLeft := by
  induction acts generalizing w with
  | nil => exact hleft
  | cons a acts ih =>
    have hstep := enrollStep (P := P) a w hlegal.1
    exact nothingLeft_back hstep (ih (enrolling_step h hstep) hlegal.2 hleft)

/-- No failed call has left a device exactly when every answer was read back. -/
theorem nothingLeft_iff {acts : List EnrollAct} {w : EnrollWorld} (h : Enrolling P w)
    (hlegal : (enrollments P).Legal acts w) (hleft : w.NothingLeft) :
    ((enrollments P).run acts w).NothingLeft ↔ (readBacks P).Legal acts w := by
  induction acts generalizing w with
  | nil => exact iff_of_true hleft trivial
  | cons a acts ih =>
    have hstep := enrollStep (P := P) a w hlegal.1
    have hnext := enrolling_step h hstep
    change ((enrollments P).run acts (w.step P a)).NothingLeft ↔
      w.readsBack a ∧ (readBacks P).Legal acts (w.step P a)
    by_cases hback : w.readsBack a
    · rw [and_iff_right hback]
      exact ih hnext hlegal.2 (nothingLeft_step h hstep hback hleft)
    · rw [iff_false_right fun hboth => hback hboth.1]
      exact fun hend => left_of_not_readsBack h hstep hback (nothingLeft_run hnext hlegal.2 hend)

/-! ## Enrollment is safe -/

variable (P) in
/-- What an action does to the codes: a call that redeems one finds it open, unexpired at the call's
    reading of the clock, and its user not deleted; any other step of a call changes nothing. -/
inductive Enrolls (w : EnrollWorld) (a : EnrollAct) : Prop
  | call (c : Call) (ha : a = .call c) (henrolled : (w.step P a).enrolled = w.enrolled)
  | quiet (hdb : (w.step P a).db = w.db) (henrolled : (w.step P a).enrolled = w.enrolled)
  | redeemed (i : Nat) (faults : List Bool) (task : EnrollTask) (push : PushRegistration)
    (key : DeviceSigningKeyRequest) (code : EnrollmentCodeRow) (user : UserRow) (r : Redeemed)
    (ha : a = .next i faults) (htask : w.tasks[i]? = some task)
    (hphase : task.phase = .redeeming push key)
    (hredeems : Redeems P task.env (task.codeHash P) push key w.db code user r (w.step P a).db)
    (henrolled : (w.step P a).enrolled = ⟨i, task.codeHash P, r.deviceId, r.userId⟩ :: w.enrolled)

variable (P) in
structure EnrollmentSafe (w : EnrollWorld) : Prop where
  once : (w.enrolled.map EnrollmentRecord.codeHash).Nodup
  devices : w.db.devices.rows.map (fun d => (d.id, d.userId)) =
    (w.enrolled.map fun e => (e.deviceId, e.userId)).reverse
  backed : ∀ e ∈ w.enrolled, ∃ task code, CodeBacked P w e task code
  enrolls : ∀ a, w.allows a → Enrolls P w a

theorem enrolls_of_step {a : EnrollAct} {w w' : EnrollWorld} (hw : w.step P a = w')
    (hstep : EnrollStep P w a w') : Enrolls P w a := by
  cases hstep with
  | called hkept => exact .call _ rfl (by rw [hw])
  | started env req => exact .quiet (by rw [hw]) (by rw [hw])
  | idle faults hnone => exact .quiet (by rw [hw]) (by rw [hw])
  | @redeemed i faults task push key code user r db htask hphase hredeems =>
    refine .redeemed i faults task push key code user r rfl htask hphase ?_ (by rw [hw])
    rw [hw]
    exact hredeems
  | refused faults e htask hphase => exact .quiet (by rw [hw]) (by rw [hw])
  | read faults htask hreading hgood hbad => exact .quiet (by rw [hw]) (by rw [hw])
  | ended faults htask hover => exact .quiet (by rw [hw]) (by rw [hw])

variable (P) in
/-- In every world reached the codes are safe, and no failed call has left a device exactly when
    every answer was read back. -/
structure EnrollmentCodesSafe : Prop where
  runs : ∀ acts, (enrollments P).Legal acts EnrollWorld.empty →
    EnrollmentSafe P ((enrollments P).run acts EnrollWorld.empty) ∧
      (((enrollments P).run acts EnrollWorld.empty).NothingLeft ↔
        (readBacks P).Legal acts EnrollWorld.empty)
  /-- The steps of a call are those of `enroll_device`. -/
  alone : ∀ env req db, ((EnrollTask.start P env req).alone P db 5).1.outcome =
    some ((Prog.eval databaseError (enrollDevice P env req) db).map Prod.fst)
  /-- A stored clock reading is read back when its year has four digits. -/
  stamps : ∀ t : DateTime, Readable t.toRfc3339Millis ↔ t.FourDigitYear

theorem enrollment_codes (P : Packages) : EnrollmentCodesSafe P where
  runs acts hlegal := by
    have h := enrolling_run enrolling_empty hlegal
    refine ⟨⟨h.once, h.devices, h.backed, fun a hallowed => ?_⟩,
      nothingLeft_iff enrolling_empty hlegal nothingLeft_empty⟩
    exact enrolls_of_step rfl (enrollStep a _ hallowed)
  alone := alone_enrollDevice P
  stamps := readable_stamp

/-! ## A failed call that enrolled a device -/

/-- A code for the owner is made and a phone redeems it. -/
def phoneRedeems : List EnrollAct :=
  [.call (open_ codeEnv), .call ⟨.admin (.createEnrollmentCode codeEnv "owner" none), []⟩,
    .start codeEnv phoneRequest, .next 0 []]

def EnrollPhase.isReadingDevice : EnrollPhase → Bool
  | .readingDevice _ => true
  | _ => false

theorem phone_reads : (((enrollments samplePackages).run phoneRedeems EnrollWorld.empty).tasks[0]?.any
    fun task => task.phase.isReadingDevice) = true := by
  decide +kernel

/-- The store fails the first read after the commit: the call fails, its code is used up and the
    device stays. -/
theorem failed_enrollment_keeps_device :
    (enrollments samplePackages).Legal (phoneRedeems ++ [.next 0 [true]]) EnrollWorld.empty ∧
      ¬ ((enrollments samplePackages).run (phoneRedeems ++ [.next 0 [true]])
        EnrollWorld.empty).NothingLeft ∧
      (((enrollments samplePackages).run (phoneRedeems ++ [.next 0 [true]])
        EnrollWorld.empty).db.enrollmentCodes.rows.map EnrollmentCodeRow.consumedAt) =
          [some (codeEnv.nowString 0)] ∧
      (((enrollments samplePackages).run (phoneRedeems ++ [.next 0 [true]])
        EnrollWorld.empty).db.devices.rows.map DeviceRow.id) = [codeEnv.newId 0] := by
  have hlegal : (enrollments samplePackages).Legal (phoneRedeems ++ [.next 0 [true]])
      EnrollWorld.empty := ⟨rfl, rfl, trivial, trivial, trivial, trivial⟩
  refine ⟨hlegal, fun hleft => ?_, by decide +kernel⟩
  have hback := (nothingLeft_iff enrolling_empty hlegal nothingLeft_empty).mp hleft
  obtain ⟨-, hread, -⟩ := ((readBacks samplePackages).legal_append).mp hback
  obtain ⟨task, htask, hphase⟩ := (Option.any_eq_true _ _).mp phone_reads
  have hgood := hread task htask
  cases hreading : task.phase with
  | readingDevice r =>
    rw [hreading] at hgood
    exact hgood.1 rfl
  | _ =>
    rw [hreading] at hphase
    cases hphase

end Nod.Server
