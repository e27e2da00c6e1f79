import Mathlib.Data.String.Basic
import Nod.Server.Lifecycle

/-
  The push outbox (`db/push_deliveries.rs`) and the task that works on one of its jobs
  (`deliver_inner` of `services/push_delivery.rs`). A claim raises the job's generation and leases it
  for 90 seconds; an attempt is written down before anything is sent; recovery frees the jobs whose
  lease has passed.
  Proved: what each statement has done (`exec_recoverPushes`, `exec_claimPushes`, `exec_held`).
-/

namespace Nod.Server.PushDeliveries

open Lib Nod.Proto

/-! ## Statements -/

structure PushJob where
  requestId : String
  deviceId : String
  attempts : Nat
  claimGeneration : Nat
  deriving DecidableEq

def PushJob.key (job : PushJob) : String × String := (job.requestId, job.deviceId)

def maxAttempts : Nat := 3

def leaseSeconds : Int := 90

/-- A lease that is over, or was never written. -/
def leaseOver (epoch : Int) (r : PushDeliveryRow) : Bool :=
  match r.leaseUntil with
  | none => true
  | some until_ => until_ ≤ epoch

def recoverable (epoch : Int) (r : PushDeliveryRow) : Bool :=
  (r.status = "sending" && leaseOver epoch r) || (r.status = "queued" && 3 ≤ r.attempts)

def recoveredRow (now : String) (r : PushDeliveryRow) : PushDeliveryRow :=
  { r with
    status := if 3 ≤ r.attempts then "failed" else "queued"
    leaseUntil := none, error := some "interrupted push lease expired", updatedAt := now }

/-- `epoch` is what `unixepoch()` reads during the statement. -/
def recoverPushes (now : String) (epoch : Int) : Sql Unit :=
  Prog.onPool fun db =>
    some ((), { db with
      pushDeliveries := db.pushDeliveries.update (recoverable epoch) (recoveredRow now) fun _ => rfl })

def claimable (r : PushDeliveryRow) : Bool := r.status = "queued" && r.attempts < 3

/-- `ORDER BY updated_at LIMIT limit`, rows of one time in the order of the table. -/
def claimedKeys (limit : Int) (db : Db) : List (String × String) :=
  (((db.pushDeliveries.rows.filter claimable).mergeSort fun a b => a.updatedAt ≤ b.updatedAt).take
    (max limit 0).toNat).map PushDeliveryRow.key

def claimedRow (now : String) (epoch : Int) (r : PushDeliveryRow) : PushDeliveryRow :=
  { r with
    status := "sending", claimGeneration := r.claimGeneration + 1
    leaseUntil := some (epoch + leaseSeconds), updatedAt := now }

def jobOf (r : PushDeliveryRow) : PushJob :=
  { requestId := r.requestId, deviceId := r.deviceId, attempts := r.attempts
    claimGeneration := r.claimGeneration }

def claimPushes (now : String) (epoch limit : Int) : Sql (List PushJob) :=
  Prog.onPool fun db =>
    let keys := claimedKeys limit db
    some (((db.pushDeliveries.rows.filter fun r => r.key ∈ keys).map (claimedRow now epoch)).map jobOf,
      { db with
        pushDeliveries := db.pushDeliveries.update (fun r => r.key ∈ keys) (claimedRow now epoch)
          fun _ => rfl })

/-- The job's claim is current, its lease is live and no attempt has been added since. -/
def heldBy (epoch : Int) (job : PushJob) (r : PushDeliveryRow) : Bool :=
  r.key = job.key && r.status = "sending" && r.claimGeneration = job.claimGeneration &&
    !leaseOver epoch r && r.attempts = job.attempts

structure PushProgress where
  status : String
  error : Option String

def progressRow (now : String) (progress : PushProgress) (r : PushDeliveryRow) : PushDeliveryRow :=
  { r with status := progress.status, updatedAt := now, error := progress.error }

/-- An update of the rows with this condition that has to change exactly one. -/
def updateOne (p : PushDeliveryRow → Bool) (f : PushDeliveryRow → PushDeliveryRow)
    (hf : ∀ r, (f r).key = r.key) : Sql Unit := do
  let affected ← Prog.onPool fun db =>
    some (db.pushDeliveries.affected p,
      { db with pushDeliveries := db.pushDeliveries.update p f hf })
  if affected ≠ 1 then .fail databaseError else pure ()

def updatePush (now : String) (epoch : Int) (job : PushJob) (progress : PushProgress) : Sql Unit :=
  updateOne (heldBy epoch job) (progressRow now progress) fun _ => rfl

def begunRow (now : String) (r : PushDeliveryRow) : PushDeliveryRow :=
  { r with attempts := r.attempts + 1, updatedAt := now }

/-- Persists the attempt before any send. -/
def beginAttempt (now : String) (epoch : Int) (job : PushJob) : Sql PushJob := do
  updateOne (fun r => heldBy epoch job r && r.attempts < 3) (begunRow now) fun _ => rfl
  pure { job with attempts := job.attempts + 1 }

def clearsToken (epoch : Int) (job : PushJob) (token : Option String) (db : Db) (d : DeviceRow) :
    Bool :=
  d.id = job.deviceId && d.pushToken.isSome && d.pushToken = token &&
    db.pushDeliveries.rows.any (heldBy epoch job)

/-- Clears only the token that was sent to, while the attempt still owns a live claim. -/
def clearInvalidPushToken (epoch : Int) (job : PushJob) (token : Option String) : Sql Bool :=
  Prog.onPool fun db =>
    some (db.devices.affected (clearsToken epoch job token db) == 1,
      { db with
        devices := db.devices.update (clearsToken epoch job token db)
          (fun d => { d with pushToken := none }) fun _ => rfl })

/-! ## The task of one job -/

/-- What `prepare_delivery` finds: a device with its push token, nothing to send, or an error. -/
inductive Prepared where
  | target (pushToken : Option String)
  | unavailable
  | failed

/-- How a send ends. -/
inductive Sent where
  | accepted
  | refused (retryable invalidToken : Bool) (message : String)

inductive Phase where
  | preparing
  | prepared (pushToken : Option String)
  | sending (pushToken : Option String)
  | clearing (pushToken : Option String) (progress : PushProgress)
  | reporting (progress : PushProgress)
  | stopped

structure PushTask where
  job : PushJob
  phase : Phase

def skipped : PushProgress :=
  { status := "skipped"
    error := some
      "request handled, alerts muted/snoozed, device revoked, or push route unavailable" }

def exhausted : PushProgress :=
  { status := "failed", error := some "delivery attempt limit reached" }

/-- The top of the loop, with what preparing the delivery has found. -/
def PushTask.prepare (task : PushTask) (found : Prepared) : PushTask :=
  if task.job.attempts < maxAttempts then
    match found with
    | .target pushToken => { task with phase := .prepared pushToken }
    | .unavailable => { task with phase := .reporting skipped }
    | .failed => { task with phase := .stopped }
  else { task with phase := .reporting exhausted }

def PushTask.finishSend (task : PushTask) (pushToken : Option String) (sent : Sent) : PushTask :=
  match sent with
  | .accepted => { task with phase := .reporting ⟨"accepted", none⟩ }
  | .refused retryable invalidToken message =>
    let willRetry := retryable && task.job.attempts < maxAttempts
    let progress : PushProgress :=
      { status := if willRetry then "sending" else "failed"
        error := some (String.ofList (message.toList.take 240)) }
    { task with
      phase := if invalidToken then .clearing pushToken progress else .reporting progress }

/-- After the report the task goes round again when the job is still being sent. -/
def PushTask.reported (task : PushTask) (progress : PushProgress) : PushTask :=
  { task with phase := if progress.status = "sending" then .preparing else .stopped }

/-- What a task can still report: it skips the job, or keeps it for another attempt, only while it
    has attempts left. -/
def PushTask.Sound (task : PushTask) : Prop :=
  ∀ progress, task.phase = .reporting progress ∨ (∃ token, task.phase = .clearing token progress) →
    progress.status = "accepted" ∨ progress.status = "failed" ∨
      (progress.status = "skipped" ∨ progress.status = "sending") ∧ task.job.attempts < maxAttempts

theorem sound_of_phase {task : PushTask} (hreporting : ∀ progress, task.phase ≠ .reporting progress)
    (hclearing : ∀ token progress, task.phase ≠ .clearing token progress) : task.Sound := by
  rintro progress (h | ⟨token, h⟩)
  · exact absurd h (hreporting progress)
  · exact absurd h (hclearing token progress)

theorem sound_reporting {job : PushJob} {progress : PushProgress}
    (h : progress.status = "accepted" ∨ progress.status = "failed" ∨
      (progress.status = "skipped" ∨ progress.status = "sending") ∧ job.attempts < maxAttempts) :
    PushTask.Sound ⟨job, .reporting progress⟩ := by
  rintro progress' (heq | ⟨token, heq⟩)
  · cases heq
    exact h
  · cases heq

theorem sound_prepare (task : PushTask) (found : Prepared) : (task.prepare found).Sound := by
  unfold PushTask.prepare
  split
  · rename_i hless
    cases found with
    | target pushToken =>
      exact sound_of_phase (fun _ h => by cases h) (fun _ _ h => by cases h)
    | unavailable => exact sound_reporting (Or.inr (Or.inr ⟨Or.inl rfl, hless⟩))
    | failed => exact sound_of_phase (fun _ h => by cases h) (fun _ _ h => by cases h)
  · exact sound_reporting (Or.inr (Or.inl rfl))

theorem sound_finishSend (task : PushTask) (pushToken : Option String) (sent : Sent) :
    (task.finishSend pushToken sent).Sound := by
  unfold PushTask.finishSend
  cases sent with
  | accepted => exact sound_reporting (Or.inl rfl)
  | refused retryable invalidToken message =>
    dsimp only
    rintro progress hphase
    have hprogress : progress.status =
        if retryable && decide (task.job.attempts < maxAttempts) then "sending" else "failed" := by
      cases invalidToken with
      | false =>
        rcases hphase with heq | ⟨token, heq⟩
        · cases heq
          rfl
        · cases heq
      | true =>
        rcases hphase with heq | ⟨token, heq⟩
        · cases heq
        · cases heq
          rfl
    rw [hprogress]
    split
    · rename_i hretry
      exact Or.inr (Or.inr ⟨Or.inr rfl, of_decide_eq_true (Bool.and_eq_true_iff.mp hretry).2⟩)
    · exact Or.inr (Or.inl rfl)

theorem sound_reported (task : PushTask) (progress : PushProgress) : (task.reported progress).Sound := by
  unfold PushTask.reported
  split
  · exact sound_of_phase (fun _ h => by cases h) (fun _ _ h => by cases h)
  · exact sound_of_phase (fun _ h => by cases h) (fun _ _ h => by cases h)

theorem PushTask.Sound.cleared {task : PushTask} {token : Option String} {progress : PushProgress}
    (h : task.Sound) (hphase : task.phase = .clearing token progress) :
    PushTask.Sound { task with phase := .reporting progress } :=
  sound_reporting (h progress (Or.inr ⟨token, hphase⟩))

/-! ## What the statements do -/

/-- One row has been rewritten and nothing else has changed. -/
structure Rewritten (db db' : Db) (r r' : PushDeliveryRow) : Prop where
  stored : db.pushDeliveries.get? r.key = some r
  get? : ∀ k, db'.pushDeliveries.get? k = if k = r.key then some r' else db.pushDeliveries.get? k
  rest : db' = { db with pushDeliveries := db'.pushDeliveries }

/-- A statement on the outbox rewrites each row it is about. -/
structure Updated (db db' : Db) (p : PushDeliveryRow → Bool)
    (f : PushDeliveryRow → PushDeliveryRow) : Prop where
  get? : ∀ k, db'.pushDeliveries.get? k =
    (db.pushDeliveries.get? k).map fun r => if p r then f r else r
  rest : db' = { db with pushDeliveries := db'.pushDeliveries }

theorem updated_update {db : Db} {p : PushDeliveryRow → Bool} {f : PushDeliveryRow → PushDeliveryRow}
    {hf : ∀ r, (f r).key = r.key} :
    Updated db { db with pushDeliveries := db.pushDeliveries.update p f hf } p f :=
  ⟨fun k => Table.get?_update _ p f hf k, rfl⟩

theorem Updated.of_neg {s s' : Db} {p : PushDeliveryRow → Bool} {f : PushDeliveryRow → PushDeliveryRow}
    (h : Updated s s' p f) {k : String × String} {r : PushDeliveryRow}
    (hr : s.pushDeliveries.get? k = some r) (hp : p r = false) :
    s'.pushDeliveries.get? k = some r := by
  rw [h.get?, hr, Option.map_some, if_neg (by rw [hp]; exact Bool.false_ne_true)]

theorem exec_recoverPushes (now : String) (epoch : Int) (faults : List Bool) (db : Db) :
    Prog.exec databaseError (recoverPushes now epoch) faults db = (.error databaseError, db) ∨
      ∃ db', Updated db db' (recoverable epoch) (recoveredRow now) ∧
        Prog.exec databaseError (recoverPushes now epoch) faults db = (.ok (), db') := by
  unfold recoverPushes
  rcases Prog.exec_onPool databaseError _ faults db with he | ⟨a, db', hf, he⟩
  · exact Or.inl he
  · cases hf
    exact Or.inr ⟨_, updated_update, he⟩

theorem mem_claimedKeys {limit : Int} {db : Db} {r : PushDeliveryRow}
    (hr : r ∈ db.pushDeliveries.rows) (h : r.key ∈ claimedKeys limit db) : claimable r = true := by
  unfold claimedKeys at h
  obtain ⟨s, hs, hkey⟩ := List.mem_map.mp h
  have hmem := List.mem_filter.mp (List.mem_mergeSort.mp (List.mem_of_mem_take hs))
  have hsame : s = r := List.inj_on_of_nodup_map db.pushDeliveries.nodup hmem.1 hr hkey
  exact hsame ▸ hmem.2

theorem exec_claimPushes (now : String) (epoch limit : Int) (faults : List Bool) (db : Db) :
    Prog.exec databaseError (claimPushes now epoch limit) faults db = (.error databaseError, db) ∨
      ∃ db' jobs, Updated db db' (fun r => r.key ∈ claimedKeys limit db) (claimedRow now epoch) ∧
        jobs = (((db.pushDeliveries.rows.filter fun r => r.key ∈ claimedKeys limit db).map
          (claimedRow now epoch)).map jobOf) ∧
        Prog.exec databaseError (claimPushes now epoch limit) faults db = (.ok jobs, db') := by
  unfold claimPushes
  rcases Prog.exec_onPool databaseError _ faults db with he | ⟨a, db', hf, he⟩
  · exact Or.inl he
  · cases hf
    exact Or.inr ⟨_, _, updated_update, rfl, he⟩

theorem heldBy_eq_true {epoch : Int} {job : PushJob} {r : PushDeliveryRow} :
    heldBy epoch job r = true ↔
      r.key = job.key ∧ r.status = "sending" ∧ r.claimGeneration = job.claimGeneration ∧
        leaseOver epoch r = false ∧ r.attempts = job.attempts := by
  unfold heldBy
  simp only [Bool.and_eq_true, decide_eq_true_eq, Bool.not_eq_true', and_assoc]

/-- A guarded update fails and changes nothing, or rewrites the one row it is about. -/
theorem exec_updateOne {p : PushDeliveryRow → Bool} {f : PushDeliveryRow → PushDeliveryRow}
    {hf : ∀ r, (f r).key = r.key} {key : String × String} (hkey : ∀ r, p r = true → r.key = key)
    (faults : List Bool) (db : Db) :
    Prog.exec databaseError (updateOne p f hf) faults db = (.error databaseError, db) ∨
      ∃ r db', p r = true ∧ Rewritten db db' r (f r) ∧
        Prog.exec databaseError (updateOne p f hf) faults db = (.ok (), db') := by
  unfold updateOne
  rcases Prog.exec_onPool_bind databaseError _ _ faults db with he | ⟨n, db', hstmt, he⟩
  · exact Or.inl he
  · cases hstmt
    rcases Table.affected_cases hkey with ⟨hzero, hnone⟩ | ⟨hone, r, hget, hp⟩
    · rw [hzero, Table.update_of_neg hnone] at he
      exact Or.inl he
    · rw [hone] at he
      refine Or.inr ⟨r, _, hp, ⟨?_, fun k => ?_, rfl⟩, he⟩
      · rw [hkey r hp]
        exact hget
      · change (db.pushDeliveries.update p f hf).get? k = _
        split
        · rename_i hk
          rw [hk, hkey r hp]
          exact Table.get?_update_of_pos hget hp
        · rename_i hk
          exact Table.get?_update_of_ne (fun s hs => (hkey s hs).trans (hkey r hp).symm) hk

theorem exec_updatePush (now : String) (epoch : Int) (job : PushJob) (progress : PushProgress)
    (faults : List Bool) (db : Db) :
    Prog.exec databaseError (updatePush now epoch job progress) faults db =
        (.error databaseError, db) ∨
      ∃ r db', heldBy epoch job r = true ∧ Rewritten db db' r (progressRow now progress r) ∧
        Prog.exec databaseError (updatePush now epoch job progress) faults db = (.ok (), db') :=
  exec_updateOne (fun _ hr => (heldBy_eq_true.mp hr).1) faults db

theorem exec_beginAttempt (now : String) (epoch : Int) (job : PushJob) (faults : List Bool)
    (db : Db) :
    Prog.exec databaseError (beginAttempt now epoch job) faults db = (.error databaseError, db) ∨
      ∃ r db', heldBy epoch job r = true ∧ r.attempts < 3 ∧ Rewritten db db' r (begunRow now r) ∧
        Prog.exec databaseError (beginAttempt now epoch job) faults db =
          (.ok { job with attempts := job.attempts + 1 }, db') := by
  unfold beginAttempt
  rw [Prog.exec_bind_ret]
  have hkey : ∀ r : PushDeliveryRow, (heldBy epoch job r && decide (r.attempts < 3)) = true →
      r.key = job.key := fun r hr => (heldBy_eq_true.mp (Bool.and_eq_true_iff.mp hr).1).1
  have hsame : ∀ r : PushDeliveryRow, (begunRow now r).key = r.key := fun _ => rfl
  rcases @exec_updateOne _ _ hsame _ hkey faults db with
    he | ⟨r, db', hp, hrewritten, he⟩
  · rw [he]
    exact Or.inl rfl
  · rw [he]
    obtain ⟨hheld, hattempts⟩ := Bool.and_eq_true_iff.mp hp
    exact Or.inr ⟨r, db', hheld, of_decide_eq_true hattempts, hrewritten, rfl⟩

theorem exec_clearInvalidPushToken (epoch : Int) (job : PushJob) (token : Option String)
    (faults : List Bool) (db : Db) :
    ∃ devices : Table DeviceRow.id,
      (Prog.exec databaseError (clearInvalidPushToken epoch job token) faults db).2 =
        { db with devices } ∧
      (devices = db.devices ∨ ∃ p, devices =
        db.devices.update p (fun d => { d with pushToken := none }) fun _ => rfl) := by
  unfold clearInvalidPushToken
  rcases Prog.exec_onPool databaseError _ faults db with he | ⟨a, db', hf, he⟩
  · rw [he]
    exact ⟨db.devices, rfl, Or.inl rfl⟩
  · cases hf
    rw [he]
    exact ⟨_, rfl, Or.inr ⟨_, rfl⟩⟩

end Nod.Server.PushDeliveries
