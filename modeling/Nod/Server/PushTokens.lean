import Nod.Server.Admin
import Nod.Server.PushOutbox

/-
  Push tokens beside the outbox. A task reads its device's token when it prepares an attempt and
  sends with it; the device may register another token at any time; an attempt that is told its
  token is invalid clears it with one statement that asks for both the token and the claim.
  Proved: over any run of calls, workers and registrations, a statement that clears takes only the
  token its own attempt sent and saw refused, while that attempt's claim is the job's current live
  one, held by no other task (`push_tokens`).
-/

namespace Nod.Server

open Lib Nod.Proto
open PushDeliveries (PushTask PushJob Phase Prepared heldBy clearsToken clearInvalidPushToken)

variable {P : Packages}

/-! ## Registrations -/

structure UpdatePushTokenRequest where
  provider : String
  token : String
  nativeAppId : String

def checkedPushToken (req : UpdatePushTokenRequest) :
    Except ApiError (String × String × String) := do
  refuseIf (Text.trim req.provider = "") (ApiError.badRequest "push provider is required")
  refuseIf (Text.trim req.token = "") (ApiError.badRequest "push token is required")
  let nativeAppId ← normalizedNativeAppId (some req.nativeAppId)
  let nativeAppId ← orElse (.badRequest "native app id is required") nativeAppId
  pure (Text.trim req.provider, Text.trim req.token, nativeAppId)

def registeredDevice (provider token nativeAppId now : String) (d : DeviceRow) : DeviceRow :=
  { d with
    pushProvider := some provider, pushToken := some token, nativeAppId := some nativeAppId
    lastSeenAt := now }

def setPushToken (deviceId provider token nativeAppId now : String) (db : Db) : Option (Unit × Db) :=
  some ((), { db with
    devices := db.devices.update (fun d => d.id = deviceId && d.revokedAt = none)
      (registeredDevice provider token nativeAppId now) fun _ => rfl })

def updatePushToken (env : Env) (deviceId : String) (req : UpdatePushTokenRequest) : Sql Unit := do
  let (provider, token, nativeAppId) ← Prog.lift (checkedPushToken req)
  Prog.onPool (setPushToken deviceId provider token nativeAppId (env.nowString 0))

theorem exec_updatePushToken (env : Env) (deviceId : String) (req : UpdatePushTokenRequest)
    (faults : List Bool) (db : Db) :
    (Prog.exec databaseError (updatePushToken env deviceId req) faults db).2 = db ∨
      ∃ provider token nativeAppId now,
        setPushToken deviceId provider token nativeAppId now db = some ((),
          (Prog.exec databaseError (updatePushToken env deviceId req) faults db).2) := by
  unfold updatePushToken
  cases checkedPushToken req with
  | error e => exact Or.inl rfl
  | ok checked =>
    obtain ⟨provider, token, nativeAppId⟩ := checked
    generalize hnow : env.nowString 0 = now
    show (Prog.exec databaseError (Prog.onPool (setPushToken deviceId provider token nativeAppId now))
      faults db).2 = db ∨ ∃ provider' token' nativeAppId' now',
        setPushToken deviceId provider' token' nativeAppId' now' db = some ((),
          (Prog.exec databaseError
            (Prog.onPool (setPushToken deviceId provider token nativeAppId now)) faults db).2)
    rcases Prog.exec_onPool databaseError (setPushToken deviceId provider token nativeAppId now)
      faults db with he | ⟨_, db', hset, he⟩
    · rw [he]
      exact Or.inl rfl
    · rw [he]
      exact Or.inr ⟨provider, token, nativeAppId, now, hset⟩

/-! ## Worlds with registrations -/

/-- One begun attempt: its job as the attempt counted it, and the token it sends with. -/
structure Attempt where
  job : PushJob
  pushToken : Option String

/-- The world, the attempts that were sent and those that saw their token refused. -/
structure TokenWorld where
  world : World
  sent : List Attempt
  refused : List Attempt

def TokenWorld.empty : TokenWorld := ⟨World.empty, [], []⟩

inductive TokenAct where
  | act (a : Act)
  | updatePushToken (env : Env) (deviceId : String) (req : UpdatePushTokenRequest)
    (faults : List Bool)

/-- The attempt that a task sends in this step. -/
def sends (before after : PushTask) : List Attempt :=
  match before.phase, after.phase with
  | .prepared _, .sending pushToken => [⟨after.job, pushToken⟩]
  | _, _ => []

/-- The attempt that sees its token refused in this step. -/
def seesRefused (before after : PushTask) : List Attempt :=
  match before.phase, after.phase with
  | .sending pushToken, .clearing _ _ => [⟨before.job, pushToken⟩]
  | _, _ => []

def TokenWorld.step (P : Packages) (a : TokenAct) (t : TokenWorld) : TokenWorld :=
  match a with
  | .updatePushToken env deviceId req faults =>
    { t with
      world := { t.world with
        db := (Prog.exec databaseError (Server.updatePushToken env deviceId req) faults
          t.world.db).2 } }
  | .act (.task i move) =>
    match t.world.tasks[i]? with
    | none => t
    | some task =>
      let after := (PushTask.step move task t.world.db).1
      { world := World.step P (.task i move) t.world
        sent := sends task after ++ t.sent
        refused := seesRefused task after ++ t.refused }
  | .act a => { t with world := World.step P a t.world }

/-- What preparing finds to send to is the stored device, with the token it has now. -/
def FoundIn (db : Db) (job : PushJob) (found : Prepared) : Prop :=
  ∀ pushToken, found = .target pushToken → ∃ d, db.devices.get? job.deviceId = some d ∧
    d.revokedAt = none ∧ d.pushToken = pushToken ∧ pushToken ≠ none

def TokenWorld.allows (a : TokenAct) (t : TokenWorld) : Prop :=
  match a with
  | .updatePushToken _ _ _ _ => True
  | .act (.task i (.prepare found)) =>
    ∀ task, t.world.tasks[i]? = some task → FoundIn t.world.db task.job found
  | .act a => t.world.allows a

def tokenWorlds (P : Packages) : Machine TokenWorld TokenAct := ⟨TokenWorld.step P, TokenWorld.allows⟩

/-! ## What a step of a task does to its token -/

theorem sends_step (move : TaskMove) (task : PushTask) (db : Db) :
    sends task (PushTask.step move task db).1 = [] ∨
      ∃ epoch r pushToken, heldBy epoch task.job r = true ∧
        db.pushDeliveries.get? r.key = some r ∧
        (PushTask.step move task db).1.job = { task.job with attempts := task.job.attempts + 1 } ∧
        (PushTask.step move task db).2.2 = [r.key] ∧
        sends task (PushTask.step move task db).1 =
          [⟨{ task.job with attempts := task.job.attempts + 1 }, pushToken⟩] := by
  obtain ⟨job, phase⟩ := task
  unfold PushTask.step
  cases phase <;> cases move <;> dsimp only
  case prepared.beginAttempt pushToken env epoch faults =>
    rcases PushDeliveries.exec_beginAttempt (env.nowString 0) epoch job faults db with
      he | ⟨r, db', hheld, -, hrow, he⟩
    · rw [he]
      exact Or.inl rfl
    · rw [he]
      refine Or.inr ⟨epoch, r, pushToken, hheld, hrow.stored, rfl, ?_, rfl⟩
      rw [(PushDeliveries.heldBy_eq_true.mp hheld).1]
      rfl
  all_goals exact Or.inl rfl

/-- The phases in which a task has a token to send with or to clear. -/
theorem phase_prepare (task : PushTask) (found : Prepared) :
    (∀ token, (task.prepare found).phase ≠ .sending token) ∧
      ∀ token progress, (task.prepare found).phase ≠ .clearing token progress := by
  unfold PushTask.prepare
  split
  · cases found
    all_goals exact ⟨fun _ h => (nomatch h), fun _ _ h => (nomatch h)⟩
  · exact ⟨fun _ h => (nomatch h), fun _ _ h => (nomatch h)⟩

theorem phase_reported (task : PushTask) (progress : PushDeliveries.PushProgress) :
    (∀ token, (task.reported progress).phase ≠ .sending token) ∧
      ∀ token progress', (task.reported progress).phase ≠ .clearing token progress' := by
  unfold PushTask.reported
  dsimp only
  split
  · exact ⟨fun _ h => (nomatch h), fun _ _ h => (nomatch h)⟩
  · exact ⟨fun _ h => (nomatch h), fun _ _ h => (nomatch h)⟩

/-- A task sends with the token of the attempt it is at, or of the one it has just begun. -/
theorem sending_step {move : TaskMove} {task : PushTask} {db : Db} {token : Option String}
    (h : (PushTask.step move task db).1.phase = .sending token) :
    (PushTask.step move task db).1 = task ∨
      sends task (PushTask.step move task db).1 =
        [⟨(PushTask.step move task db).1.job, token⟩] := by
  obtain ⟨job, phase⟩ := task
  unfold PushTask.step at h ⊢
  cases phase <;> cases move <;> dsimp only at h ⊢
  case preparing.prepare found => exact absurd h ((phase_prepare _ found).1 token)
  case prepared.beginAttempt pushToken env epoch faults =>
    rcases PushDeliveries.exec_beginAttempt (env.nowString 0) epoch job faults db with
      he | ⟨r, db', -, -, -, he⟩
    · rw [he] at h
      exact nomatch h
    · rw [he] at h ⊢
      cases h
      exact Or.inr rfl
  case sending.finishSend pushToken sent =>
    unfold PushTask.finishSend at h
    cases sent with
    | accepted => exact nomatch h
    | refused retryable invalidToken message => cases invalidToken <;> exact nomatch h
  case clearing.clearToken pushToken progress epoch faults => exact nomatch h
  case reporting.report progress env epoch faults =>
    exact absurd h ((phase_reported _ progress).1 token)
  all_goals exact Or.inl rfl

/-- A task is to clear a token from the moment its attempt sees it refused. -/
theorem clearing_step {move : TaskMove} {task : PushTask} {db : Db} {token : Option String}
    {progress : PushDeliveries.PushProgress}
    (h : (PushTask.step move task db).1.phase = .clearing token progress) :
    (PushTask.step move task db).1 = task ∨
      (PushTask.step move task db).1.job = task.job ∧ task.phase = .sending token ∧
        seesRefused task (PushTask.step move task db).1 = [⟨task.job, token⟩] := by
  obtain ⟨job, phase⟩ := task
  unfold PushTask.step at h ⊢
  cases phase <;> cases move <;> dsimp only at h ⊢
  case preparing.prepare found => exact absurd h ((phase_prepare _ found).2 token progress)
  case prepared.beginAttempt pushToken env epoch faults =>
    rcases PushDeliveries.exec_beginAttempt (env.nowString 0) epoch job faults db with
      he | ⟨r, db', -, -, -, he⟩
    · rw [he] at h
      exact nomatch h
    · rw [he] at h
      exact nomatch h
  case sending.finishSend pushToken sent =>
    unfold PushTask.finishSend at h ⊢
    cases sent with
    | accepted => exact nomatch h
    | refused retryable invalidToken message =>
      cases invalidToken with
      | false => exact nomatch h
      | true =>
        cases h
        exact Or.inr ⟨rfl, rfl, rfl⟩
  case clearing.clearToken pushToken progress' epoch faults => exact nomatch h
  case reporting.report progress' env epoch faults =>
    exact absurd h ((phase_reported _ progress').2 token progress)
  all_goals exact Or.inl rfl

/-- No step sees a token refused that its task did not send with. -/
theorem seesRefused_step {move : TaskMove} {task : PushTask} {db : Db} {attempt : Attempt}
    (h : attempt ∈ seesRefused task (PushTask.step move task db).1) :
    attempt.job = task.job ∧ task.phase = .sending attempt.pushToken := by
  unfold seesRefused at h
  split at h
  next pushToken _ _ hbefore _ =>
    rw [List.mem_singleton.mp h]
    exact ⟨rfl, hbefore⟩
  next => exact absurd h List.not_mem_nil

/-! ## The invariant -/

/-- Each attempt was sent once, with one token; whoever sends or clears does it for an attempt. -/
structure Tracked (P : Packages) (t : TokenWorld) : Prop where
  safe : PushSafe P t.world
  sending : ∀ task ∈ t.world.tasks, ∀ token, task.phase = .sending token →
    ⟨task.job, token⟩ ∈ t.sent
  clearing : ∀ task ∈ t.world.tasks, ∀ token progress, task.phase = .clearing token progress →
    ⟨task.job, token⟩ ∈ t.refused
  refused : ∀ attempt ∈ t.refused, attempt ∈ t.sent
  counted : ∀ attempt ∈ t.sent, attempt.job.attempts ≤ t.world.begun.count attempt.job.key
  once : (t.sent.map fun attempt => (attempt.job.key, attempt.job.attempts)).Nodup

theorem tracked_empty : Tracked P .empty :=
  ⟨pushSafe_empty, fun _ h => absurd h List.not_mem_nil, fun _ h => absurd h List.not_mem_nil,
    fun _ h => absurd h List.not_mem_nil, fun _ h => absurd h List.not_mem_nil, List.nodup_nil⟩

/-- Whatever changes neither tasks nor outbox keeps track of the attempts. -/
theorem Tracked.aside {t : TokenWorld} {world : World} (h : Tracked P t) (hsafe : PushSafe P world)
    (htasks : ∀ task ∈ world.tasks, task ∈ t.world.tasks ∨ task.phase = .preparing)
    (hbegun : world.begun = t.world.begun) : Tracked P { t with world := world } where
  safe := hsafe
  sending task htask token hphase := by
    rcases htasks task htask with hold | hnew
    · exact h.sending task hold token hphase
    · exact nomatch hnew.symm.trans hphase
  clearing task htask token progress hphase := by
    rcases htasks task htask with hold | hnew
    · exact h.clearing task hold token progress hphase
    · exact nomatch hnew.symm.trans hphase
  refused := h.refused
  counted attempt hattempt := by
    show _ ≤ world.begun.count _
    rw [hbegun]
    exact h.counted attempt hattempt
  once := h.once

/-- Only tasks begin attempts, and only claims start tasks. -/
theorem tasks_aside {a : Act} (ha : ∀ i move, a ≠ .task i move) (w : World) :
    (∀ task ∈ (World.step P a w).tasks, task ∈ w.tasks ∨ task.phase = .preparing) ∧
      (World.step P a w).begun = w.begun := by
  cases a with
  | claimPushes env epoch limit faults =>
    refine ⟨fun task htask => ?_, rfl⟩
    rcases List.mem_append.mp htask with hold | hnew
    · exact Or.inl hold
    · obtain ⟨job, -, rfl⟩ := List.mem_map.mp hnew
      exact Or.inr rfl
  | task i move => exact absurd rfl (ha i move)
  | _ => exact ⟨fun _ htask => Or.inl htask, rfl⟩

theorem step_act {a : Act} (ha : ∀ i move, a ≠ .task i move) (t : TokenWorld) :
    TokenWorld.step P (.act a) t = { t with world := World.step P a t.world } := by
  cases a with
  | task i move => exact absurd rfl (ha i move)
  | _ => rfl

theorem step_task {t : TokenWorld} {i : Nat} {task : PushTask} (hi : t.world.tasks[i]? = some task)
    (move : TaskMove) : TokenWorld.step P (.act (.task i move)) t =
      { world := World.step P (.task i move) t.world
        sent := sends task (PushTask.step move task t.world.db).1 ++ t.sent
        refused := seesRefused task (PushTask.step move task t.world.db).1 ++ t.refused } := by
  show (match t.world.tasks[i]? with
    | none => t
    | some task => _) = _
  rw [hi]

theorem world_task {w : World} {i : Nat} {task : PushTask} (hi : w.tasks[i]? = some task)
    (move : TaskMove) : World.step P (.task i move) w =
      { w with
        tasks := w.tasks.set i (PushTask.step move task w.db).1
        db := (PushTask.step move task w.db).2.1
        begun := (PushTask.step move task w.db).2.2 ++ w.begun } := by
  unfold World.step
  dsimp only
  rw [hi]

/-- The attempt that is begun next is one that has not been counted. -/
theorem fresh_attempt {t : TokenWorld} (h : Tracked P t) {job : PushJob} {epoch : Int}
    {r : PushDeliveryRow} (hheld : heldBy epoch job r = true)
    (hr : t.world.db.pushDeliveries.get? r.key = some r) :
    job.attempts = t.world.begun.count job.key ∧
      (job.key, job.attempts + 1) ∉
        t.sent.map fun attempt => (attempt.job.key, attempt.job.attempts) := by
  obtain ⟨hkey, -, -, -, hattempts⟩ := PushDeliveries.heldBy_eq_true.mp hheld
  have hcount : job.attempts = t.world.begun.count job.key := by
    rw [← hkey, ← hattempts]
    exact h.safe.pushing.attempts r.key r hr
  refine ⟨hcount, fun hmem => ?_⟩
  obtain ⟨attempt, hattempt, heq⟩ := List.mem_map.mp hmem
  have hle := h.counted attempt hattempt
  have hsame : attempt.job.key = job.key := congrArg Prod.fst heq
  have hnumber : attempt.job.attempts = job.attempts + 1 := congrArg Prod.snd heq
  rw [hsame] at hle
  omega

theorem Tracked.task {t : TokenWorld} (h : Tracked P t) {i : Nat} {task : PushTask}
    (hi : t.world.tasks[i]? = some task) (move : TaskMove) :
    Tracked P (TokenWorld.step P (.act (.task i move)) t) := by
  have hmem : task ∈ t.world.tasks := List.mem_of_getElem? hi
  have hsafe := pushSafe_step (.task i move) h.safe
  rw [step_task hi move]
  rw [world_task hi move] at hsafe ⊢
  have htasks : ∀ task' ∈ t.world.tasks.set i (PushTask.step move task t.world.db).1,
      task' ∈ t.world.tasks ∨ task' = (PushTask.step move task t.world.db).1 :=
    fun _ htask' => List.mem_or_eq_of_mem_set htask'
  refine ⟨hsafe, fun task' htask' token hphase => ?_, fun task' htask' token progress hphase => ?_,
    fun attempt hattempt => ?_, fun attempt hattempt => ?_, ?_⟩
  · refine List.mem_append.mpr ?_
    rcases htasks task' htask' with hold | rfl
    · exact Or.inr (h.sending task' hold token hphase)
    · rcases sending_step hphase with hsame | hsends
      · rw [hsame] at hphase ⊢
        exact Or.inr (h.sending task hmem token hphase)
      · rw [hsends]
        exact Or.inl (List.mem_singleton_self _)
  · refine List.mem_append.mpr ?_
    rcases htasks task' htask' with hold | rfl
    · exact Or.inr (h.clearing task' hold token progress hphase)
    · rcases clearing_step hphase with hsame | ⟨hjob, -, hrefused⟩
      · rw [hsame] at hphase ⊢
        exact Or.inr (h.clearing task hmem token progress hphase)
      · rw [hjob, hrefused]
        exact Or.inl (List.mem_singleton_self _)
  · refine List.mem_append.mpr (Or.inr ?_)
    rcases List.mem_append.mp hattempt with hnew | hold
    · obtain ⟨hjob, hphase⟩ := seesRefused_step hnew
      have hsent := h.sending task hmem attempt.pushToken hphase
      rw [← hjob] at hsent
      exact hsent
    · exact h.refused attempt hold
  · show attempt.job.attempts ≤
      ((PushTask.step move task t.world.db).2.2 ++ t.world.begun).count attempt.job.key
    rw [List.count_append]
    rcases List.mem_append.mp hattempt with hnew | hold
    · rcases sends_step move task t.world.db with hnil | ⟨epoch, r, token, hheld, hr, -, hkeys, hsends⟩
      · rw [hnil] at hnew
        exact absurd hnew List.not_mem_nil
      · rw [hsends, List.mem_singleton] at hnew
        obtain ⟨hcount, -⟩ := fresh_attempt h hheld hr
        have hkey : r.key = attempt.job.key := by
          rw [hnew]
          exact (PushDeliveries.heldBy_eq_true.mp hheld).1
        have hnumber : attempt.job.attempts = task.job.attempts + 1 := by
          rw [hnew]
        have hsame : attempt.job.key = task.job.key := by
          rw [hnew]
          rfl
        rw [hkeys, hkey, List.count_singleton_self, hnumber, hcount, hsame]
        omega
    · have hle := h.counted attempt hold
      omega
  · rw [List.map_append]
    rcases sends_step move task t.world.db with hnil | ⟨epoch, r, token, hheld, hr, -, -, hsends⟩
    · rw [hnil]
      exact h.once
    · rw [hsends]
      exact List.nodup_cons.mpr ⟨(fresh_attempt h hheld hr).2, h.once⟩

theorem keyed_registeredDevice {d : DeviceRow} (provider token nativeAppId now : String)
    (h : Keyed P d) : Keyed P (registeredDevice provider token nativeAppId now d) := by
  obtain ⟨hid, halgorithm, hkey⟩ := h
  exact ⟨hid, halgorithm, hkey⟩

/-- A registration touches devices alone. -/
theorem Tracked.updatePushToken {t : TokenWorld} (h : Tracked P t) (env : Env) (deviceId : String)
    (req : UpdatePushTokenRequest) (faults : List Bool) :
    Tracked P (TokenWorld.step P (.updatePushToken env deviceId req faults) t) := by
  refine h.aside ?_ (fun _ htask => Or.inl htask) rfl
  rcases exec_updatePushToken env deviceId req faults t.world.db with
    hsame | ⟨provider, token, nativeAppId, now, hset⟩
  · rw [hsame]
    exact h.safe
  · rw [← congrArg Prod.snd (Option.some.inj hset)]
    have hrequeued : Requeued (P := P) t.world.db { t.world.db with
        devices := t.world.db.devices.update (fun d => d.id = deviceId && d.revokedAt = none)
          (registeredDevice provider token nativeAppId now) fun _ => rfl } := by
      refine ⟨⟨id, (List.map_id _).symm, fun _ _ => ⟨rfl, rfl, rfl, rfl⟩⟩,
        fun c hc => ⟨c, hc, sameDelivery_refl c⟩, fun hkeyed d hd => ?_, rfl⟩
      obtain ⟨d₀, hd₀, rfl⟩ := List.mem_map.mp hd
      split
      · exact keyed_registeredDevice provider token nativeAppId now (hkeyed d₀ hd₀)
      · exact hkeyed d₀ hd₀
    have hpushing := h.safe.pushing
    exact ⟨hrequeued.wellFormed h.safe.wellFormed, hpushing.statuses, hpushing.attempts,
      hpushing.bounded, hpushing.knownRows, hpushing.knownBegun, hpushing.knownTasks,
      hpushing.generations, hpushing.claims, hpushing.sound⟩

theorem tracked_step (a : TokenAct) {t : TokenWorld} (h : Tracked P t) :
    Tracked P (TokenWorld.step P a t) := by
  cases a with
  | updatePushToken env deviceId req faults => exact h.updatePushToken env deviceId req faults
  | act a =>
    by_cases htask : ∃ i move, a = .task i move
    · obtain ⟨i, move, rfl⟩ := htask
      cases hi : t.world.tasks[i]? with
      | some task => exact h.task hi move
      | none =>
        have hsame : TokenWorld.step P (.act (.task i move)) t = t := by
          show (match t.world.tasks[i]? with
            | none => t
            | some task => _) = _
          rw [hi]
        rw [hsame]
        exact h
    · have hother : ∀ i move, a ≠ .task i move := fun i move ha => htask ⟨i, move, ha⟩
      rw [step_act hother]
      obtain ⟨htasks, hbegun⟩ := tasks_aside (P := P) hother t.world
      exact h.aside (pushSafe_step a h.safe) htasks hbegun

theorem tracked_run {acts : List TokenAct} {t : TokenWorld} (h : Tracked P t)
    (hlegal : (tokenWorlds P).Legal acts t) : Tracked P ((tokenWorlds P).run acts t) :=
  Machine.invariant (M := tokenWorlds P) (fun a _ h _ => tracked_step a h) h hlegal

/-- An attempt is known by its job and its number. -/
theorem Tracked.attempt_inj {t : TokenWorld} (h : Tracked P t) {a b : Attempt} (ha : a ∈ t.sent)
    (hb : b ∈ t.sent) (hkey : a.job.key = b.job.key) (hnumber : a.job.attempts = b.job.attempts) :
    a = b :=
  List.inj_on_of_nodup_map h.once ha hb (Prod.ext hkey hnumber)

/-! ## What clears a token -/

/-- What the statement of a clearing attempt leaves of a device. -/
theorem get?_clearInvalidPushToken (epoch : Int) (job : PushJob) (token : Option String)
    (faults : List Bool) {db : Db} {d : DeviceRow} (hd : db.devices.get? d.id = some d) :
    (Prog.exec databaseError (clearInvalidPushToken epoch job token) faults db).2.devices.get? d.id =
        some d ∨
      clearsToken epoch job token db d = true ∧
        (Prog.exec databaseError (clearInvalidPushToken epoch job token) faults
          db).2.devices.get? d.id = some { d with pushToken := none } := by
  unfold clearInvalidPushToken
  rcases Prog.exec_onPool databaseError _ faults db with he | ⟨a, db', hf, he⟩
  · rw [he]
    exact Or.inl hd
  · cases hf
    rw [he]
    dsimp only
    by_cases hclears : clearsToken epoch job token db d = true
    · exact Or.inr ⟨hclears, Table.get?_update_of_pos hd hclears⟩
    · refine Or.inl ?_
      rw [Table.get?_update, hd, Option.map_some, if_neg hclears]

theorem devices_settleCallback {now : String} {claim : CallbackDeliveries.CallbackClaim}
    {f : CallbackRow → CallbackRow} {hf : ∀ c, (f c).deliveryId = c.deliveryId}
    {faults : List Bool} {s : Db} :
    (Prog.exec databaseError (CallbackDeliveries.settle now claim f hf) faults s).2.devices =
      s.devices := by
  rcases CallbackDeliveries.exec_settle now claim f hf faults s with
    ⟨r, he, -⟩ | ⟨c, db', -, hrewritten, he⟩
  · rw [he]
  · rw [he, hrewritten.rest]

theorem devices_settleEvent {now : String} {claim : LifecyclePublish.PublishClaim}
    {f : EventRow → EventRow} {hf : ∀ e, (f e).eventId = e.eventId} {faults : List Bool} {s : Db} :
    (Prog.exec databaseError (LifecyclePublish.settle now claim f hf) faults s).2.devices =
      s.devices := by
  rcases LifecyclePublish.exec_settle now claim f hf faults s with
    ⟨r, he, -⟩ | ⟨e, db', -, hrewritten, he⟩
  · rw [he]
  · rw [he, hrewritten.rest]

/-- A step of a task leaves the devices alone, or is the statement that clears. -/
theorem devices_task (move : TaskMove) (task : PushTask) (db : Db) :
    (PushTask.step move task db).2.1.devices = db.devices ∨
      ∃ token progress epoch faults, move = .clearToken epoch faults ∧
        task.phase = .clearing token progress ∧ (PushTask.step move task db).2.1 =
          (Prog.exec databaseError (clearInvalidPushToken epoch task.job token) faults db).2 := by
  obtain ⟨job, phase⟩ := task
  unfold PushTask.step
  cases phase <;> cases move <;> dsimp only
  case prepared.beginAttempt pushToken env epoch faults =>
    rcases PushDeliveries.exec_beginAttempt (env.nowString 0) epoch job faults db with
      he | ⟨r, db', -, -, hrow, he⟩
    · rw [he]
      exact Or.inl rfl
    · rw [he, hrow.rest]
      exact Or.inl rfl
  case clearing.clearToken pushToken progress epoch faults =>
    exact Or.inr ⟨pushToken, progress, epoch, faults, rfl, rfl, rfl⟩
  case reporting.report progress env epoch faults =>
    rcases PushDeliveries.exec_updatePush (env.nowString 0) epoch job progress faults db with
      he | ⟨r, db', -, hrow, he⟩
    · rw [he]
      exact Or.inl rfl
    · rw [he, hrow.rest]
      exact Or.inl rfl
  all_goals exact Or.inl rfl

/-- Besides the tasks no worker touches a device. -/
theorem devices_aside {a : Act} (hcall : ∀ c, a ≠ .call c) (htask : ∀ i move, a ≠ .task i move)
    (w : World) : (World.step P a w).db.devices = w.db.devices := by
  cases a with
  | call c => exact absurd rfl (hcall c)
  | task i move => exact absurd rfl (htask i move)
  | claimCallback env faults =>
    show (Prog.exec databaseError (CallbackDeliveries.claimDue env) faults w.db).2.devices = _
    rcases CallbackDeliveries.exec_claimDue env faults w.db with
      (he | ⟨he, -⟩) | ⟨c, db', until_, -, -, hrewritten, he⟩
    · rw [he]
    · rw [he]
    · rw [he, hrewritten.rest]
  | completeCallback env claim status faults =>
    show (Prog.exec databaseError (CallbackDeliveries.complete env claim status) faults
      w.db).2.devices = _
    unfold CallbackDeliveries.complete
    split
    · rfl
    · exact devices_settleCallback
  | retryCallback env claim status blockedPolicy faults => exact devices_settleCallback
  | claimEvent env faults =>
    show (Prog.exec databaseError (LifecyclePublish.claimDue env) faults w.db).2.devices = _
    rcases LifecyclePublish.exec_claimDue env faults w.db with
      (he | ⟨he, -⟩) | ⟨e, db', until_, -, -, hrewritten, he⟩
    · rw [he]
    · rw [he]
    · rw [he, hrewritten.rest]
  | publishEvent env claim streamSeq faults => exact devices_settleEvent
  | retryEvent env claim faults => exact devices_settleEvent
  | recoverPushes env epoch faults =>
    show (Prog.exec databaseError (PushDeliveries.recoverPushes (env.nowString 0) epoch) faults
      w.db).2.devices = _
    rcases PushDeliveries.exec_recoverPushes (env.nowString 0) epoch faults w.db with
      he | ⟨db', hupdated, he⟩
    · rw [he]
    · rw [he, hupdated.rest]
  | claimPushes env epoch limit faults =>
    show (Prog.exec databaseError (PushDeliveries.claimPushes (env.nowString 0) epoch limit) faults
      w.db).2.devices = _
    rcases PushDeliveries.exec_claimPushes (env.nowString 0) epoch limit faults w.db with
      he | ⟨db', jobs, hupdated, -, he⟩
    · rw [he]
    · rw [he, hupdated.rest]

/-- The attempt at task `i` has cleared this device's token. -/
structure ClearedBy (t : TokenWorld) (i : Nat) (epoch : Int) (task : PushTask) (token : String)
    (d : DeviceRow) : Prop where
  running : t.world.tasks[i]? = some task
  sent : ⟨task.job, some token⟩ ∈ t.sent
  refused : ⟨task.job, some token⟩ ∈ t.refused
  device : d.id = task.job.deviceId
  stored : d.pushToken = some token
  holder : ∃ r ∈ t.world.db.pushDeliveries.rows, heldBy epoch task.job r = true ∧
    ∀ j other, t.world.tasks[j]? = some other → other.job.key = r.key →
      other.job.claimGeneration = r.claimGeneration → j = i

theorem clearsToken_eq_true {epoch : Int} {job : PushJob} {token : Option String} {db : Db}
    {d : DeviceRow} : clearsToken epoch job token db d = true ↔
      d.id = job.deviceId ∧ (∃ s, d.pushToken = some s) ∧ d.pushToken = token ∧
        ∃ r ∈ db.pushDeliveries.rows, heldBy epoch job r = true := by
  unfold clearsToken
  simp only [Bool.and_eq_true, decide_eq_true_eq, Option.isSome_iff_exists, List.any_eq_true,
    and_assoc]

/-- Whatever a worker does, a device stays as it is or loses the token an attempt saw refused. -/
theorem device_step {t : TokenWorld} (h : Tracked P t) {a : Act} (hcall : ∀ c, a ≠ .call c)
    {d : DeviceRow} (hd : t.world.db.devices.get? d.id = some d) :
    (World.step P a t.world).db.devices.get? d.id = some d ∨
      (World.step P a t.world).db.devices.get? d.id = some { d with pushToken := none } ∧
        ∃ i epoch faults task token, a = .task i (.clearToken epoch faults) ∧
          ClearedBy t i epoch task token d := by
  by_cases htask : ∃ i move, a = .task i move
  · obtain ⟨i, move, rfl⟩ := htask
    cases hi : t.world.tasks[i]? with
    | none =>
      refine Or.inl ?_
      unfold World.step
      dsimp only
      rw [hi]
      exact hd
    | some task =>
      rw [world_task hi move]
      dsimp only
      rcases devices_task move task t.world.db with
        hsame | ⟨token, progress, epoch, faults, hmove, hphase, he⟩
      · rw [hsame]
        exact Or.inl hd
      · rw [he]
        rcases get?_clearInvalidPushToken epoch task.job token faults hd with
          hkept | ⟨hclears, hcleared⟩
        · exact Or.inl hkept
        · obtain ⟨hdevice, ⟨s, hs⟩, htoken, r, hr, hheld⟩ := clearsToken_eq_true.mp hclears
          obtain ⟨hkey, -, hgeneration, -⟩ := PushDeliveries.heldBy_eq_true.mp hheld
          have hmem : task ∈ t.world.tasks := List.mem_of_getElem? hi
          have hrefused := h.clearing task hmem token progress hphase
          rw [← htoken, hs] at hrefused
          refine Or.inr ⟨hcleared, i, epoch, faults, task, s, by rw [hmove], hi,
            h.refused _ hrefused, hrefused, hdevice, hs, r, hr, hheld, ?_⟩
          intro j other hj hother hgen
          exact eq_of_claim h.safe.pushing hi hj
            (Prod.ext (hother.trans hkey) (hgen.trans hgeneration))
  · refine Or.inl ?_
    rw [devices_aside hcall fun i move ha => htask ⟨i, move, ha⟩]
    exact hd

/-! ## Tokens are safe -/

/-- What holds of tokens in a world, whatever a worker does next. -/
structure TokenSafe (P : Packages) (t : TokenWorld) : Prop where
  cleared : ∀ a, (∀ c, a ≠ .call c) → ∀ d, t.world.db.devices.get? d.id = some d →
    (World.step P a t.world).db.devices.get? d.id = some d ∨
      (World.step P a t.world).db.devices.get? d.id = some { d with pushToken := none } ∧
        ∃ i epoch faults task token, a = .task i (.clearToken epoch faults) ∧
          ClearedBy t i epoch task token d
  oneToken : ∀ a ∈ t.sent, ∀ b ∈ t.sent, a.job.key = b.job.key →
    a.job.attempts = b.job.attempts → a = b
  newer : ∀ attempt ∈ t.sent, ∀ d, t.world.db.devices.get? d.id = some d →
    d.pushToken ≠ attempt.pushToken → ∀ i epoch faults task, t.world.tasks[i]? = some task →
      task.job = attempt.job →
        (World.step P (.task i (.clearToken epoch faults)) t.world).db.devices.get? d.id = some d

theorem tokenSafe_of_tracked {t : TokenWorld} (h : Tracked P t) : TokenSafe P t where
  cleared _ hcall _ hd := device_step h hcall hd
  oneToken _ ha _ hb hkey hnumber := h.attempt_inj ha hb hkey hnumber
  newer attempt hattempt d hd hother i epoch faults task hi hjob := by
    rcases device_step (P := P) (a := .task i (.clearToken epoch faults)) h
      (fun _ ha => nomatch ha) hd with hkept | ⟨-, i', epoch', faults', task', token, ha, hby⟩
    · exact hkept
    · cases ha
      have htask : task' = task := Option.some.inj (hby.running.symm.trans hi)
      subst htask
      have hsame := h.attempt_inj hby.sent hattempt (congrArg PushJob.key hjob)
        (congrArg PushJob.attempts hjob)
      have htoken : some token = attempt.pushToken := congrArg Attempt.pushToken hsame
      exact absurd (hby.stored.trans htoken) hother

variable (P) in
/-- Tokens are safe in every world that calls, workers and registrations reach. -/
def PushTokensSafe : Prop :=
  ∀ acts, (tokenWorlds P).Legal acts .empty → TokenSafe P ((tokenWorlds P).run acts .empty)

theorem push_tokens (P : Packages) : PushTokensSafe P :=
  fun _ hlegal => tokenSafe_of_tracked (tracked_run tracked_empty hlegal)

end Nod.Server
