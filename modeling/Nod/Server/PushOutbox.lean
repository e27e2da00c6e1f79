import Nod.Server.Workers

/-
  The push outbox over a run of the server and its workers. An attempt is begun under the job's
  current generation, so the attempts of a job are the ones its row counts; a request's jobs come in
  once, so the count outlives the row.
  Proved: `push_outbox`, in every world a job has at most three begun attempts, each of them begun by
  the one task of the current generation while its lease is live; a finished job stays as it is; a job
  with three attempts only ends; and an unfinished job nobody holds is recovered or claimed.
-/

namespace Nod.Server

open Lib Nod.Proto
open PushDeliveries (PushTask PushJob PushProgress Phase heldBy leaseOver recoverable recoveredRow
  claimable claimedKeys claimedRow progressRow begunRow Updated Rewritten)

variable {P : Packages}

/-! ## What one action does to the jobs -/

/-- A task's step: nothing written, an attempt begun, or progress reported. -/
inductive TaskStep (move : TaskMove) (w w' : World) (task task' : PushTask) : Prop
  | quiet (hjob : task'.job = task.job) (hpushes : w'.db.pushDeliveries = w.db.pushDeliveries)
      (hbegun : w'.begun = w.begun)
  | began (env : Env) (epoch : Int) (faults : List Bool) (r : PushDeliveryRow)
      (pushToken : Option String) (hmove : move = .beginAttempt env epoch faults)
      (hphase : task.phase = .prepared pushToken) (hheld : heldBy epoch task.job r = true)
      (hless : r.attempts < 3) (hrow : Rewritten w.db w'.db r (begunRow (env.nowString 0) r))
      (htask : task' = ⟨{ task.job with attempts := task.job.attempts + 1 }, .sending pushToken⟩)
      (hbegun : w'.begun = r.key :: w.begun)
  | reported (env : Env) (epoch : Int) (faults : List Bool) (r : PushDeliveryRow)
      (progress : PushProgress) (hmove : move = .report env epoch faults)
      (hphase : task.phase = .reporting progress) (hheld : heldBy epoch task.job r = true)
      (hrow : Rewritten w.db w'.db r (progressRow (env.nowString 0) progress r)) (hjob : task'.job = task.job)
      (hbegun : w'.begun = w.begun)

inductive PushStep (a : Act) (w w' : World) : Prop
  | fed (hjobs : Jobs w.db w'.db) (htasks : w'.tasks = w.tasks) (hbegun : w'.begun = w.begun)
  | recovered (env : Env) (epoch : Int) (faults : List Bool) (ha : a = .recoverPushes env epoch faults)
      (hrows : Updated w.db w'.db (recoverable epoch) (recoveredRow (env.nowString 0)))
      (htasks : w'.tasks = w.tasks) (hbegun : w'.begun = w.begun)
  | claimed (now : String) (epoch : Int) (keys : List (String × String)) (jobs : List PushJob)
      (hkeys : ∀ r ∈ w.db.pushDeliveries.rows, r.key ∈ keys → claimable r = true)
      (hrows : Updated w.db w'.db (fun r => r.key ∈ keys) (claimedRow now epoch))
      (hjobs : jobs = ((w.db.pushDeliveries.rows.filter fun r => r.key ∈ keys).map
        (claimedRow now epoch)).map PushDeliveries.jobOf)
      (htasks : w'.tasks = w.tasks ++ startTasks jobs) (hbegun : w'.begun = w.begun)
  | moved (i : Nat) (move : TaskMove) (task task' : PushTask) (ha : a = .task i move)
      (hi : w.tasks[i]? = some task) (htasks : w'.tasks = w.tasks.set i task')
      (hsound : task.Sound → task'.Sound) (hstep : TaskStep move w w' task task')

theorem pushStep_same {a : Act} {w w' : World} (hpushes : w'.db.pushDeliveries = w.db.pushDeliveries)
    (htasks : w'.tasks = w.tasks) (hbegun : w'.begun = w.begun) : PushStep a w w' :=
  .fed (jobs_of_eq hpushes) htasks hbegun

theorem pushStep_task (i : Nat) (move : TaskMove) {w : World} {task : PushTask}
    (hi : w.tasks[i]? = some task) : PushStep (.task i move) w (World.step P (.task i move) w) := by
  have hmoved : ∀ r : PushTask × Db × List (String × String), PushTask.step move task w.db = r →
      World.step P (.task i move) w =
        { w with tasks := w.tasks.set i r.1, db := r.2.1, begun := r.2.2 ++ w.begun } := by
    rintro r rfl
    unfold World.step
    dsimp only
    rw [hi]
  obtain ⟨job, phase⟩ := task
  unfold PushTask.step at hmoved
  cases phase <;> cases move <;> dsimp only at hmoved
  case preparing.prepare found =>
    rw [hmoved _ rfl]
    refine .moved i _ _ _ rfl hi rfl (fun _ => PushDeliveries.sound_prepare _ found)
      (.quiet ?_ rfl rfl)
    unfold PushTask.prepare
    split
    · cases found <;> rfl
    · rfl
  case sending.finishSend pushToken sent =>
    rw [hmoved _ rfl]
    refine .moved i _ _ _ rfl hi rfl (fun _ => PushDeliveries.sound_finishSend _ pushToken sent)
      (.quiet ?_ rfl rfl)
    unfold PushTask.finishSend
    cases sent <;> rfl
  case prepared.beginAttempt pushToken env epoch faults =>
    rcases PushDeliveries.exec_beginAttempt (env.nowString 0) epoch job faults w.db with
      he | ⟨r, db', hheld, hless, hrow, he⟩
    · rw [he] at hmoved
      rw [hmoved _ rfl]
      exact .moved i _ _ _ rfl hi rfl
        (fun _ => PushDeliveries.sound_of_phase (fun _ h => by cases h) fun _ _ h => by cases h)
        (.quiet rfl rfl rfl)
    · rw [he] at hmoved
      rw [hmoved _ rfl]
      refine .moved i _ _ _ rfl hi rfl
        (fun _ => PushDeliveries.sound_of_phase (fun _ h => by cases h) fun _ _ h => by cases h)
        (.began env epoch faults r pushToken rfl rfl hheld hless hrow rfl ?_)
      rw [(PushDeliveries.heldBy_eq_true.mp hheld).1]
      rfl
  case clearing.clearToken pushToken progress epoch faults =>
    obtain ⟨devices, he, -⟩ :=
      PushDeliveries.exec_clearInvalidPushToken epoch job pushToken faults w.db
    rw [he] at hmoved
    rw [hmoved _ rfl]
    exact .moved i _ _ _ rfl hi rfl (fun hsound => hsound.cleared rfl) (.quiet rfl rfl rfl)
  case reporting.report progress env epoch faults =>
    have hjob : (PushTask.reported ⟨job, .reporting progress⟩ progress).job = job := rfl
    rcases PushDeliveries.exec_updatePush (env.nowString 0) epoch job progress faults w.db with
      he | ⟨r, db', hheld, hrow, he⟩
    · rw [he] at hmoved
      rw [hmoved _ rfl]
      exact .moved i _ _ _ rfl hi rfl (fun _ => PushDeliveries.sound_reported _ progress)
        (.quiet hjob rfl rfl)
    · rw [he] at hmoved
      rw [hmoved _ rfl]
      exact .moved i _ _ _ rfl hi rfl (fun _ => PushDeliveries.sound_reported _ progress)
        (.reported env epoch faults r progress rfl rfl hheld hrow hjob rfl)
  all_goals
    rw [hmoved _ rfl]
    exact .moved i _ _ _ rfl hi rfl (fun hsound => hsound) (.quiet rfl rfl rfl)

theorem pushes_settleCallback {now : String} {claim : CallbackDeliveries.CallbackClaim}
    {f : CallbackRow → CallbackRow} {hf : ∀ c, (f c).deliveryId = c.deliveryId}
    {faults : List Bool} {s : Db} :
    (Prog.exec databaseError (CallbackDeliveries.settle now claim f hf) faults s).2.pushDeliveries =
      s.pushDeliveries := by
  rcases CallbackDeliveries.exec_settle now claim f hf faults s with
    ⟨r, he, -⟩ | ⟨c, db', -, hrewritten, he⟩
  · rw [he]
  · rw [he, hrewritten.rest]

theorem pushes_settleEvent {now : String} {claim : LifecyclePublish.PublishClaim}
    {f : EventRow → EventRow} {hf : ∀ e, (f e).eventId = e.eventId} {faults : List Bool} {s : Db} :
    (Prog.exec databaseError (LifecyclePublish.settle now claim f hf) faults s).2.pushDeliveries =
      s.pushDeliveries := by
  rcases LifecyclePublish.exec_settle now claim f hf faults s with
    ⟨r, he, -⟩ | ⟨e, db', -, hrewritten, he⟩
  · rw [he]
  · rw [he, hrewritten.rest]

/-- What one action does to the jobs. -/
theorem pushStep_of_act (a : Act) {w : World} (hw : WellFormed P w.db) :
    PushStep a w (World.step P a w) := by
  cases a with
  | call c => exact .fed (fed_call c hw).jobs rfl rfl
  | claimCallback env faults =>
    refine pushStep_same ?_ rfl rfl
    change (Prog.exec databaseError (CallbackDeliveries.claimDue env) faults
      w.db).2.pushDeliveries = _
    rcases CallbackDeliveries.exec_claimDue env faults w.db with
      (he | ⟨he, -⟩) | ⟨c, db', until_, -, -, hrewritten, he⟩
    · rw [he]
    · rw [he]
    · rw [he, hrewritten.rest]
  | completeCallback env claim status faults =>
    refine pushStep_same ?_ rfl rfl
    change (Prog.exec databaseError (CallbackDeliveries.complete env claim status) faults
      w.db).2.pushDeliveries = _
    unfold CallbackDeliveries.complete
    split
    · rfl
    · exact pushes_settleCallback
  | retryCallback env claim status blockedPolicy faults =>
    exact pushStep_same pushes_settleCallback rfl rfl
  | claimEvent env faults =>
    refine pushStep_same ?_ rfl rfl
    change (Prog.exec databaseError (LifecyclePublish.claimDue env) faults
      w.db).2.pushDeliveries = _
    rcases LifecyclePublish.exec_claimDue env faults w.db with
      (he | ⟨he, -⟩) | ⟨e, db', until_, -, -, hrewritten, he⟩
    · rw [he]
    · rw [he]
    · rw [he, hrewritten.rest]
  | publishEvent env claim streamSeq faults => exact pushStep_same pushes_settleEvent rfl rfl
  | retryEvent env claim faults => exact pushStep_same pushes_settleEvent rfl rfl
  | recoverPushes env epoch faults =>
    unfold World.step
    dsimp only
    rcases PushDeliveries.exec_recoverPushes (env.nowString 0) epoch faults w.db with
      he | ⟨db', hupdated, he⟩
    · rw [he]
      exact pushStep_same rfl rfl rfl
    · rw [he]
      exact .recovered env epoch faults rfl hupdated rfl rfl
  | claimPushes env epoch limit faults =>
    unfold World.step
    dsimp only
    rcases PushDeliveries.exec_claimPushes (env.nowString 0) epoch limit faults w.db with
      he | ⟨db', jobs, hupdated, hjobs, he⟩
    · rw [he]
      exact pushStep_same rfl (List.append_nil _) rfl
    · rw [he]
      exact .claimed (env.nowString 0) epoch _ jobs
        (fun r hr hmem => PushDeliveries.mem_claimedKeys hr hmem) hupdated hjobs rfl rfl
  | task i move =>
    cases hi : w.tasks[i]? with
    | none =>
      have hsame : World.step P (.task i move) w = w := by
        unfold World.step
        dsimp only
        rw [hi]
      rw [hsame]
      exact pushStep_same rfl rfl rfl
    | some task => exact pushStep_task i move hi

/-! ## The invariant -/

/-- The job has ended. -/
def PushDeliveryRow.Finished (r : PushDeliveryRow) : Prop :=
  r.status = "accepted" ∨ r.status = "failed" ∨ r.status = "skipped"

def PushJob.claim (job : PushJob) : (String × String) × Nat := (job.key, job.claimGeneration)

/-- The request has been created, whether or not it is still stored. -/
def Db.Known (db : Db) (id : String) : Prop := db.eventsOf id ≠ []

theorem known_step (a : Act) {w : World} (hw : WellFormed P w.db) {id : String}
    (h : w.db.Known id) : (World.step P a w).db.Known id := by
  by_cases hcall : ∃ c, a = .call c
  · obtain ⟨call, rfl⟩ := hcall
    obtain ⟨added, owed, hlogs⟩ := (fed_call call hw).logs
    intro hnil
    change (call.after P w.db).eventsOf id = [] at hnil
    unfold Db.eventsOf at hnil
    rw [hlogs.events, List.filter_append, List.append_eq_nil_iff] at hnil
    exact h hnil.1
  · have hentries := (requeued_step (P := P) (fun c hc => hcall ⟨c, hc⟩) w).eventsOf id
    intro hnil
    rw [hnil, List.map_nil] at hentries
    exact h (List.map_eq_nil_iff.mp hentries.symm)

structure Pushing (w : World) : Prop where
  statuses : ∀ k r, w.db.pushDeliveries.get? k = some r →
    r.status = "queued" ∨ r.status = "sending" ∨ r.Finished
  attempts : ∀ k r, w.db.pushDeliveries.get? k = some r → r.attempts = w.begun.count k
  bounded : ∀ k, w.begun.count k ≤ 3
  knownRows : ∀ k r, w.db.pushDeliveries.get? k = some r → w.db.Known k.1
  knownBegun : ∀ k ∈ w.begun, w.db.Known k.1
  knownTasks : ∀ task ∈ w.tasks, w.db.Known task.job.requestId
  generations : ∀ task ∈ w.tasks, ∀ r, w.db.pushDeliveries.get? task.job.key = some r →
    task.job.claimGeneration ≤ r.claimGeneration
  claims : (w.tasks.map fun task => PushJob.claim task.job).Nodup
  sound : ∀ task ∈ w.tasks, task.Sound

theorem count_of_unknown {w : World} (hw : Pushing w) {k : String × String}
    (h : w.db.eventsOf k.1 = []) : w.begun.count k = 0 :=
  List.count_eq_zero.mpr fun hmem => hw.knownBegun k hmem h

/-- Jobs that come in are new, and those that go take nothing along. -/
theorem Pushing.fed {a : Act} {w : World} (hw : Pushing w) (hs : WellFormed P w.db)
    (hjobs : Jobs w.db (World.step P a w).db) (htasks : (World.step P a w).tasks = w.tasks)
    (hbegun : (World.step P a w).begun = w.begun) : Pushing (World.step P a w) := by
  have hknown : ∀ {id}, w.db.Known id → (World.step P a w).db.Known id := fun h => known_step a hs h
  refine ⟨fun k r hr => ?_, fun k r hr => ?_, fun k => ?_, fun k r hr => ?_, fun k hk => ?_,
    fun task htask => ?_, fun task htask r hr => ?_, ?_, fun task htask => ?_⟩
  · rcases hjobs.new k r hr with hold | ⟨hnew, -, -⟩
    · exact hw.statuses k r hold
    · exact Or.inl hnew.status
  · rw [hbegun]
    rcases hjobs.new k r hr with hold | ⟨hnew, hunknown, -⟩
    · exact hw.attempts k r hold
    · rw [count_of_unknown hw hunknown]
      exact hnew.attempts
  · rw [hbegun]
    exact hw.bounded k
  · rcases hjobs.new k r hr with hold | ⟨-, -, hcreated⟩
    · exact hknown (hw.knownRows k r hold)
    · exact hcreated
  · rw [hbegun] at hk
    exact hknown (hw.knownBegun k hk)
  · rw [htasks] at htask
    exact hknown (hw.knownTasks task htask)
  · rw [htasks] at htask
    rcases hjobs.new _ r hr with hold | ⟨-, hunknown, -⟩
    · exact hw.generations task htask r hold
    · exact absurd hunknown (hw.knownTasks task htask)
  · rw [htasks]
    exact hw.claims
  · rw [htasks] at htask
    exact hw.sound task htask

/-- A statement that changes neither the attempts nor the number of begun ones. -/
theorem Pushing.updated {a : Act} {w : World} (hw : Pushing w) (hs : WellFormed P w.db)
    {p : PushDeliveryRow → Bool} {f : PushDeliveryRow → PushDeliveryRow}
    (hrows : Updated w.db (World.step P a w).db p f)
    (hstatus : ∀ r ∈ w.db.pushDeliveries.rows, p r = true →
      (f r).status = "queued" ∨ (f r).status = "sending" ∨ (f r).Finished)
    (hattempts : ∀ r, (f r).attempts = r.attempts)
    (hgeneration : ∀ r, r.claimGeneration ≤ (f r).claimGeneration)
    (hbegun : (World.step P a w).begun = w.begun) {new : List PushTask}
    (htasks : (World.step P a w).tasks = w.tasks ++ new)
    (hnew : ∀ task ∈ new, ∃ r ∈ w.db.pushDeliveries.rows, p r = true ∧ r.key = task.job.key ∧
      task.job.claimGeneration = (f r).claimGeneration ∧ r.claimGeneration < (f r).claimGeneration)
    (hdistinct : (new.map fun task => PushJob.claim task.job).Nodup)
    (hsound : ∀ task ∈ new, task.Sound) : Pushing (World.step P a w) := by
  have hknown : ∀ {id}, w.db.Known id → (World.step P a w).db.Known id := fun h => known_step a hs h
  -- what stood under a key before the statement
  have hold : ∀ k r', (World.step P a w).db.pushDeliveries.get? k = some r' →
      ∃ r, w.db.pushDeliveries.get? k = some r ∧ r' = if p r then f r else r := by
    intro k r' hr'
    rw [hrows.get?, Option.map_eq_some_iff] at hr'
    obtain ⟨r, hr, heq⟩ := hr'
    exact ⟨r, hr, heq.symm⟩
  refine ⟨fun k r' hr' => ?_, fun k r' hr' => ?_, fun k => ?_, fun k r' hr' => ?_, fun k hk => ?_,
    fun task htask => ?_, fun task htask r' hr' => ?_, ?_, fun task htask => ?_⟩
  · obtain ⟨r, hr, rfl⟩ := hold k r' hr'
    split
    · rename_i hp
      exact hstatus r (Table.mem_of_get? hr) hp
    · exact hw.statuses k r hr
  · obtain ⟨r, hr, rfl⟩ := hold k r' hr'
    rw [hbegun, ← hw.attempts k r hr]
    split
    · exact hattempts r
    · rfl
  · rw [hbegun]
    exact hw.bounded k
  · obtain ⟨r, hr, -⟩ := hold k r' hr'
    exact hknown (hw.knownRows k r hr)
  · rw [hbegun] at hk
    exact hknown (hw.knownBegun k hk)
  · rw [htasks] at htask
    rcases List.mem_append.mp htask with htask | htask
    · exact hknown (hw.knownTasks task htask)
    · obtain ⟨r, hr, -, hkey, -⟩ := hnew task htask
      exact hknown (hw.knownRows task.job.key r (hkey ▸ Table.get?_of_mem hr))
  · obtain ⟨r, hr, rfl⟩ := hold _ r' hr'
    have hgrows : r.claimGeneration ≤ (if p r then f r else r).claimGeneration := by
      split
      · exact hgeneration r
      · exact le_refl _
    rw [htasks] at htask
    rcases List.mem_append.mp htask with htask | htask
    · exact (hw.generations task htask r hr).trans hgrows
    · obtain ⟨r₀, hr₀, hp, hkey, hgen, -⟩ := hnew task htask
      have hsame : r₀ = r := by
        have hget := Table.get?_of_mem hr₀
        rw [hkey, hr] at hget
        exact (Option.some.inj hget).symm
      rw [hsame] at hp hgen
      rw [if_pos hp]
      exact hgen.le
  · rw [htasks, List.map_append]
    refine List.nodup_append.mpr ⟨hw.claims, hdistinct, ?_⟩
    rintro x hx y hy rfl
    obtain ⟨task, htask, rfl⟩ := List.mem_map.mp hx
    obtain ⟨task', htask', heq⟩ := List.mem_map.mp hy
    obtain ⟨r, hr, -, hkey, hgen, hless⟩ := hnew task' htask'
    have hkeys : task'.job.key = task.job.key := congrArg Prod.fst heq
    have hgens : task'.job.claimGeneration = task.job.claimGeneration := congrArg Prod.snd heq
    have hle := hw.generations task htask r (by
      rw [← hkeys, ← hkey]
      exact Table.get?_of_mem hr)
    omega
  · rw [htasks] at htask
    rcases List.mem_append.mp htask with htask | htask
    · exact hw.sound task htask
    · exact hsound task htask

theorem map_claim_set {tasks : List PushTask} {i : Nat} {task task' : PushTask}
    (hi : tasks[i]? = some task) (hclaim : PushJob.claim task'.job = PushJob.claim task.job) :
    (tasks.set i task').map (fun task => PushJob.claim task.job) =
      tasks.map fun task => PushJob.claim task.job := by
  obtain ⟨hlt, hget⟩ := List.getElem?_eq_some_iff.mp hi
  rw [List.map_set, hclaim, ← hget]
  have hlen : i < (tasks.map fun task => PushJob.claim task.job).length := by
    rw [List.length_map]
    exact hlt
  have hself : PushJob.claim tasks[i].job = (tasks.map fun task => PushJob.claim task.job)[i] := by
    rw [List.getElem_map]
  rw [hself, List.set_getElem_self]

/-- A task's step changes at most the row of its job. -/
theorem Pushing.moved {a : Act} {w : World} (hw : Pushing w) (hs : WellFormed P w.db) {i : Nat}
    {task task' : PushTask} (hi : w.tasks[i]? = some task)
    (htasks : (World.step P a w).tasks = w.tasks.set i task') (hsound : task.Sound → task'.Sound)
    (hclaim : PushJob.claim task'.job = PushJob.claim task.job)
    (hrow : ∀ k r', (World.step P a w).db.pushDeliveries.get? k = some r' →
      ∃ r, w.db.pushDeliveries.get? k = some r ∧ r'.claimGeneration = r.claimGeneration ∧
        (r'.status = "queued" ∨ r'.status = "sending" ∨ r'.Finished) ∧
        r'.attempts = (World.step P a w).begun.count k)
    (hbounded : ∀ k, (World.step P a w).begun.count k ≤ 3)
    (hbegun : ∀ k ∈ (World.step P a w).begun, w.db.Known k.1) : Pushing (World.step P a w) := by
  have hknown : ∀ {id}, w.db.Known id → (World.step P a w).db.Known id := fun h => known_step a hs h
  have hmem : task ∈ w.tasks := List.mem_of_getElem? hi
  have hkey : task'.job.key = task.job.key := congrArg Prod.fst hclaim
  have hgen : task'.job.claimGeneration = task.job.claimGeneration := congrArg Prod.snd hclaim
  have htaskOf : ∀ t ∈ (World.step P a w).tasks, ∃ t₀ ∈ w.tasks,
      t.job.key = t₀.job.key ∧ t.job.claimGeneration = t₀.job.claimGeneration := by
    intro t ht
    rw [htasks] at ht
    rcases List.mem_or_eq_of_mem_set ht with ht | rfl
    · exact ⟨t, ht, rfl, rfl⟩
    · exact ⟨task, hmem, hkey, hgen⟩
  refine ⟨fun k r' hr' => ?_, fun k r' hr' => ?_, hbounded, fun k r' hr' => ?_, fun k hk => ?_,
    fun t ht => ?_, fun t ht r' hr' => ?_, ?_, fun t ht => ?_⟩
  · obtain ⟨r, -, -, hstatus, -⟩ := hrow k r' hr'
    exact hstatus
  · obtain ⟨r, -, -, -, hattempts⟩ := hrow k r' hr'
    exact hattempts
  · obtain ⟨r, hr, -⟩ := hrow k r' hr'
    exact hknown (hw.knownRows k r hr)
  · exact hknown (hbegun k hk)
  · obtain ⟨t₀, ht₀, hsame, -⟩ := htaskOf t ht
    have hid : t.job.requestId = t₀.job.requestId := congrArg Prod.fst hsame
    rw [hid]
    exact hknown (hw.knownTasks t₀ ht₀)
  · obtain ⟨t₀, ht₀, hsame, hgens⟩ := htaskOf t ht
    obtain ⟨r, hr, hrgen, -⟩ := hrow _ r' hr'
    rw [hgens, hrgen]
    rw [hsame] at hr
    exact hw.generations t₀ ht₀ r hr
  · rw [htasks, map_claim_set hi hclaim]
    exact hw.claims
  · rw [htasks] at ht
    rcases List.mem_or_eq_of_mem_set ht with ht | rfl
    · exact hw.sound t ht
    · exact hsound (hw.sound task hmem)

theorem pushing_step (a : Act) {w : World} (hs : WellFormed P w.db) (hw : Pushing w) :
    Pushing (World.step P a w) := by
  cases pushStep_of_act (P := P) a hs with
  | fed hjobs htasks hbegun => exact hw.fed hs hjobs htasks hbegun
  | recovered env epoch faults ha hrows htasks hbegun =>
    refine hw.updated hs hrows (fun r _ _ => ?_) (fun _ => rfl) (fun _ => le_refl _) hbegun
      (htasks.trans (List.append_nil w.tasks).symm) (fun _ h => absurd h List.not_mem_nil) List.nodup_nil
      (fun _ h => absurd h List.not_mem_nil)
    · change (if 3 ≤ r.attempts then "failed" else "queued") = "queued" ∨ _ ∨
        (recoveredRow (env.nowString 0) r).Finished
      by_cases hspent : 3 ≤ r.attempts
      · exact Or.inr (Or.inr (Or.inr (Or.inl (if_pos hspent))))
      · exact Or.inl (if_neg hspent)
  | claimed now epoch keys jobs hkeys hrows hjobs htasks hbegun =>
    have hjob : ∀ task ∈ startTasks jobs, ∃ r ∈ w.db.pushDeliveries.rows, r.key ∈ keys ∧
        task = ⟨PushDeliveries.jobOf (claimedRow now epoch r), .preparing⟩ := by
      intro task htask
      obtain ⟨job, hjob, rfl⟩ := List.mem_map.mp htask
      rw [hjobs] at hjob
      obtain ⟨_, hmem, rfl⟩ := List.mem_map.mp hjob
      obtain ⟨r, hr, rfl⟩ := List.mem_map.mp hmem
      exact ⟨r, (List.mem_filter.mp hr).1, of_decide_eq_true (List.mem_filter.mp hr).2, rfl⟩
    refine hw.updated hs hrows (fun _ _ _ => Or.inr (Or.inl rfl)) (fun _ => rfl)
      (fun r => Nat.le_succ r.claimGeneration) hbegun htasks (fun task htask => ?_) ?_
      (fun task htask => ?_)
    · obtain ⟨r, hr, hkey, rfl⟩ := hjob task htask
      exact ⟨r, hr, decide_eq_true hkey, rfl, rfl, Nat.lt_succ_self _⟩
    · have hclaims : (startTasks jobs).map (fun task => PushJob.claim task.job) =
          (w.db.pushDeliveries.rows.filter fun r => r.key ∈ keys).map
            fun r => (r.key, r.claimGeneration + 1) := by
        rw [hjobs]
        unfold startTasks
        rw [List.map_map, List.map_map, List.map_map]
        rfl
      rw [hclaims]
      refine List.Nodup.of_map Prod.fst ?_
      rw [List.map_map]
      exact w.db.pushDeliveries.nodup.sublist (List.filter_sublist.map _)
    · obtain ⟨r, -, -, rfl⟩ := hjob task htask
      exact PushDeliveries.sound_of_phase (fun _ h => by cases h) fun _ _ h => by cases h
  | moved i move task task' ha hi htasks hsound hstep =>
    cases hstep with
    | quiet hjob hpushes hbegun =>
      refine hw.moved hs hi htasks hsound (congrArg PushJob.claim hjob) (fun k r hr => ?_) (fun k => ?_)
        (fun k hk => ?_)
      · rw [hpushes] at hr
        rw [hbegun]
        exact ⟨r, hr, rfl, hw.statuses k r hr, hw.attempts k r hr⟩
      · rw [hbegun]
        exact hw.bounded k
      · rw [hbegun] at hk
        exact hw.knownBegun k hk
    | began env epoch faults r pushToken hmove hphase hheld hless hrow htask hbegun =>
      have hcount := hw.attempts r.key r hrow.stored
      refine hw.moved hs hi htasks hsound (by rw [htask]; rfl) (fun k r' hr' => ?_) (fun k => ?_)
        (fun k hk => ?_)
      · rw [hrow.get?] at hr'
        rw [hbegun, List.count_cons]
        split at hr'
        · rename_i hk
          subst hk
          cases hr'
          refine ⟨r, hrow.stored, rfl, Or.inr (Or.inl (PushDeliveries.heldBy_eq_true.mp hheld).2.1), ?_⟩
          rw [if_pos (beq_self_eq_true _), ← hcount]
          rfl
        · rename_i hk
          rw [if_neg (by simpa using fun h => hk h.symm)]
          exact ⟨r', hr', rfl, hw.statuses k r' hr', hw.attempts k r' hr'⟩
      · rw [hbegun, List.count_cons]
        have hle := hw.bounded k
        split
        · rename_i hk
          have heq : r.key = k := by simpa using hk
          subst heq
          omega
        · omega
      · rw [hbegun] at hk
        rcases List.mem_cons.mp hk with rfl | hk
        · exact hw.knownRows r.key r hrow.stored
        · exact hw.knownBegun k hk
    | reported env epoch faults r progress hmove hphase hheld hrow hjob hbegun =>
      have hmem : task ∈ w.tasks := List.mem_of_getElem? hi
      refine hw.moved hs hi htasks hsound (congrArg PushJob.claim hjob) (fun k r' hr' => ?_)
        (fun k => ?_) (fun k hk => ?_)
      · rw [hrow.get?] at hr'
        rw [hbegun]
        split at hr'
        · rename_i hk
          subst hk
          cases hr'
          refine ⟨r, hrow.stored, rfl, ?_, hw.attempts r.key r hrow.stored⟩
          rcases hw.sound task hmem progress (Or.inl hphase) with h | h | ⟨h | h, -⟩
          · exact Or.inr (Or.inr (Or.inl h))
          · exact Or.inr (Or.inr (Or.inr (Or.inl h)))
          · exact Or.inr (Or.inr (Or.inr (Or.inr h)))
          · exact Or.inr (Or.inl h)
        · exact ⟨r', hr', rfl, hw.statuses k r' hr', hw.attempts k r' hr'⟩
      · rw [hbegun]
        exact hw.bounded k
      · rw [hbegun] at hk
        exact hw.knownBegun k hk

/-! ## Runs -/

/-- The invariant of a world and its push outbox. -/
structure PushSafe (P : Packages) (w : World) : Prop where
  wellFormed : WellFormed P w.db
  pushing : Pushing w

theorem pushSafe_step (a : Act) {w : World} (hw : PushSafe P w) : PushSafe P (World.step P a w) :=
  ⟨wellFormed_step a hw.wellFormed, pushing_step a hw.wellFormed hw.pushing⟩

theorem pushSafe_empty : PushSafe P World.empty := by
  have hnone : ∀ k r, World.empty.db.pushDeliveries.get? k ≠ some r := fun _ _ h => by cases h
  exact ⟨wellFormed_empty P, fun k r h => absurd h (hnone k r), fun k r h => absurd h (hnone k r),
    fun _ => Nat.zero_le _, fun k r h => absurd h (hnone k r), fun _ h => absurd h List.not_mem_nil,
    fun _ h => absurd h List.not_mem_nil, fun _ h => absurd h List.not_mem_nil, List.nodup_nil,
    fun _ h => absurd h List.not_mem_nil⟩

theorem pushSafe_run {acts : List Act} {w : World} (hw : PushSafe P w)
    (hlegal : (worlds P).Legal acts w) : PushSafe P ((worlds P).run acts w) :=
  Machine.invariant (M := worlds P) (fun a _ h _ => pushSafe_step a h) hw hlegal

/-! ## Begun attempts -/

/-- An action begins no attempt, or one under the job's current claim. -/
theorem begun_step (a : Act) {w : World} (hs : WellFormed P w.db) :
    (World.step P a w).begun = w.begun ∨
      ∃ i env epoch faults task r, a = .task i (.beginAttempt env epoch faults) ∧
        w.tasks[i]? = some task ∧ w.db.pushDeliveries.get? r.key = some r ∧
        heldBy epoch task.job r = true ∧ r.attempts < 3 ∧
        (World.step P a w).begun = r.key :: w.begun := by
  cases pushStep_of_act (P := P) a hs with
  | fed hjobs htasks hbegun => exact Or.inl hbegun
  | recovered env epoch faults ha hrows htasks hbegun => exact Or.inl hbegun
  | claimed now epoch keys jobs hkeys hrows hjobs htasks hbegun => exact Or.inl hbegun
  | moved i move task task' ha hi htasks hsound hstep =>
    cases hstep with
    | quiet hjob hpushes hbegun => exact Or.inl hbegun
    | reported env epoch faults r progress hmove hphase hheld hrow hjob hbegun => exact Or.inl hbegun
    | began env epoch faults r pushToken hmove hphase hheld hless hrow htask hbegun =>
      subst hmove
      exact Or.inr ⟨i, env, epoch, faults, task, r, ha, hi, hrow.stored, hheld, hless, hbegun⟩

theorem begun_suffix {acts : List Act} {w : World} (hw : PushSafe P w)
    (hlegal : (worlds P).Legal acts w) : w.begun <:+ ((worlds P).run acts w).begun :=
  Machine.relates (M := worlds P) (I := PushSafe P) (R := fun a b => a.begun <:+ b.begun)
    (fun _ => List.suffix_rfl) (fun h k => h.trans k) (fun a _ h _ => pushSafe_step a h)
    (fun a w h _ => by
      rcases begun_step (P := P) a h.wellFormed with hsame | ⟨_, _, _, _, _, r, -, -, -, -, -, hbegun⟩
      · change w.begun <:+ (World.step P a w).begun
        exact hsame ▸ List.suffix_rfl
      · change w.begun <:+ (World.step P a w).begun
        rw [hbegun]
        exact List.suffix_cons _ _) hw hlegal

/-- No two tasks work under one claim. -/
theorem eq_of_claim {w : World} (hw : Pushing w) {i j : Nat} {task task' : PushTask}
    (hi : w.tasks[i]? = some task) (hj : w.tasks[j]? = some task')
    (hclaim : PushJob.claim task'.job = PushJob.claim task.job) : j = i := by
  obtain ⟨hlt, -⟩ := List.getElem?_eq_some_iff.mp hj
  refine List.getElem?_inj (by rw [List.length_map]; exact hlt) hw.claims |>.mp ?_
  rw [List.getElem?_map, List.getElem?_map, hi, hj, Option.map_some, Option.map_some, hclaim]

/-! ## Jobs that have ended -/

theorem PushDeliveryRow.Finished.not_sending {r : PushDeliveryRow} (h : r.Finished) :
    r.status ≠ "sending" := by
  rcases h with h | h | h
  · rw [h]
    decide
  · rw [h]
    decide
  · rw [h]
    decide

theorem PushDeliveryRow.Finished.not_queued {r : PushDeliveryRow} (h : r.Finished) :
    r.status ≠ "queued" := by
  rcases h with h | h | h
  · rw [h]
    decide
  · rw [h]
    decide
  · rw [h]
    decide

theorem not_recoverable {r : PushDeliveryRow} (epoch : Int) (h : r.Finished) :
    recoverable epoch r = false := by
  unfold recoverable
  rw [decide_eq_false h.not_sending, decide_eq_false h.not_queued]
  rfl

theorem not_claimable {r : PushDeliveryRow} (h : r.Finished) : claimable r = false := by
  unfold claimable
  rw [decide_eq_false h.not_queued]
  rfl

/-- The request of this job is known and the job has ended as `r`, or went with its request. -/
structure Ended (r : PushDeliveryRow) (n : Nat) (w : World) : Prop where
  known : w.db.Known r.requestId
  row : w.db.pushDeliveries.get? r.key = some r ∨ w.db.pushDeliveries.get? r.key = none
  begun : w.begun.count r.key = n

theorem ended_step (a : Act) {w : World} (hs : WellFormed P w.db) {r : PushDeliveryRow} {n : Nat}
    (hfinished : r.Finished) (h : Ended r n w) : Ended r n (World.step P a w) := by
  have hidle : ∀ {epoch job r'}, heldBy epoch job r' = true →
      w.db.pushDeliveries.get? r'.key = some r' → r.key ≠ r'.key := by
    intro epoch job r' hheld hstored hkey
    obtain ⟨-, hsending, -⟩ := PushDeliveries.heldBy_eq_true.mp hheld
    rcases h.row with hrow | hrow
    · rw [hkey, hstored] at hrow
      cases hrow
      exact hfinished.not_sending hsending
    · rw [hkey, hstored] at hrow
      cases hrow
  have hrow : (World.step P a w).db.pushDeliveries.get? r.key = some r ∨
      (World.step P a w).db.pushDeliveries.get? r.key = none := by
    cases pushStep_of_act (P := P) a hs with
    | fed hjobs htasks hbegun =>
      rcases h.row with hrow | hrow
      · rcases hjobs.kept r.key r hrow with hsame | ⟨hgone, -⟩
        · exact Or.inl hsame
        · exact Or.inr hgone
      · cases hnew : (World.step P a w).db.pushDeliveries.get? r.key with
        | none => exact Or.inr rfl
        | some r' =>
          rcases hjobs.new r.key r' hnew with hold | ⟨-, hunknown, -⟩
          · rw [hrow] at hold
            cases hold
          · exact absurd hunknown h.known
    | recovered env epoch faults ha hrows htasks hbegun =>
      rcases h.row with hrow | hrow
      · exact Or.inl (hrows.of_neg hrow (not_recoverable epoch hfinished))
      · rw [hrows.get?, hrow]
        exact Or.inr rfl
    | claimed now epoch keys jobs hkeys hrows hjobs htasks hbegun =>
      rcases h.row with hrow | hrow
      · refine Or.inl (hrows.of_neg hrow (decide_eq_false fun hmem => ?_))
        have hclaimable := hkeys r (Table.mem_of_get? hrow) hmem
        rw [not_claimable hfinished] at hclaimable
        cases hclaimable
      · rw [hrows.get?, hrow]
        exact Or.inr rfl
    | moved i move task task' ha hi htasks hsound hstep =>
      cases hstep with
      | quiet hjob hpushes hbegun =>
        rw [hpushes]
        exact h.row
      | began env epoch faults r' pushToken hmove hphase hheld hless hrow htask hbegun =>
        rw [hrow.get?, if_neg (hidle hheld hrow.stored)]
        exact h.row
      | reported env epoch faults r' progress hmove hphase hheld hrow hjob hbegun =>
        rw [hrow.get?, if_neg (hidle hheld hrow.stored)]
        exact h.row
  refine ⟨known_step a hs h.known, hrow, ?_⟩
  rcases begun_step (P := P) a hs with hsame | ⟨_, _, _, _, _, r', -, -, hstored, hheld, -, hbegun⟩
  · rw [hsame]
    exact h.begun
  · rw [hbegun, List.count_cons, if_neg (by simpa using fun heq => hidle hheld hstored heq.symm)]
    exact h.begun

theorem ended_run {acts : List Act} {w : World} (hw : PushSafe P w)
    (hlegal : (worlds P).Legal acts w) {r : PushDeliveryRow} {n : Nat} (hfinished : r.Finished)
    (h : Ended r n w) : Ended r n ((worlds P).run acts w) := by
  have hboth := Machine.invariant (M := worlds P) (I := fun w => PushSafe P w ∧ Ended r n w)
    (fun a w h _ => ⟨pushSafe_step a h.1, ended_step a h.1.wellFormed hfinished h.2⟩) ⟨hw, h⟩ hlegal
  exact hboth.2

/-! ## Jobs whose attempts are used up -/

variable (P) in
/-- What an action can do to a job with no attempt left. -/
inductive Ends (w : World) (a : Act) (r : PushDeliveryRow) : Prop
  | stays (h : (World.step P a w).db.pushDeliveries.get? r.key = some r)
  | removed (h : (World.step P a w).db.pushDeliveries.get? r.key = none)
  | reported (i : Nat) (env : Env) (epoch : Int) (faults : List Bool) (task : PushTask)
      (progress : PushProgress) (ha : a = .task i (.report env epoch faults))
      (hi : w.tasks[i]? = some task) (hheld : heldBy epoch task.job r = true)
      (hstatus : progress.status = "accepted" ∨ progress.status = "failed")
      (hrow : (World.step P a w).db.pushDeliveries.get? r.key =
        some (progressRow (env.nowString 0) progress r))
  | recovered (env : Env) (epoch : Int) (faults : List Bool)
      (ha : a = .recoverPushes env epoch faults) (hrecoverable : recoverable epoch r = true)
      (hstatus : (recoveredRow (env.nowString 0) r).status = "failed")
      (hrow : (World.step P a w).db.pushDeliveries.get? r.key =
        some (recoveredRow (env.nowString 0) r))

theorem ends_of_exhausted (a : Act) {w : World} (hw : PushSafe P w) {r : PushDeliveryRow}
    (hr : w.db.pushDeliveries.get? r.key = some r) (hspent : r.attempts = 3) : Ends P w a r := by
  cases pushStep_of_act (P := P) a hw.wellFormed with
  | fed hjobs htasks hbegun =>
    rcases hjobs.kept r.key r hr with hsame | ⟨hgone, -⟩
    · exact .stays hsame
    · exact .removed hgone
  | recovered env epoch faults ha hrows htasks hbegun =>
    cases hrecoverable : recoverable epoch r with
    | false => exact .stays (hrows.of_neg hr hrecoverable)
    | true =>
      refine .recovered env epoch faults ha hrecoverable (if_pos hspent.ge) ?_
      rw [hrows.get?, hr, Option.map_some, if_pos hrecoverable]
  | claimed now epoch keys jobs hkeys hrows hjobs htasks hbegun =>
    refine .stays (hrows.of_neg hr (decide_eq_false fun hmem => ?_))
    have hclaimable := hkeys r (Table.mem_of_get? hr) hmem
    unfold claimable at hclaimable
    simp only [Bool.and_eq_true, decide_eq_true_eq] at hclaimable
    omega
  | moved i move task task' ha hi htasks hsound hstep =>
    cases hstep with
    | quiet hjob hpushes hbegun =>
      refine .stays ?_
      rw [hpushes]
      exact hr
    | began env epoch faults r' pushToken hmove hphase hheld hless hrow htask hbegun =>
      refine .stays ?_
      rw [hrow.get?, if_neg]
      · exact hr
      · intro hkey
        have hsame := hrow.stored
        rw [← hkey, hr] at hsame
        cases hsame
        omega
    | reported env epoch faults r' progress hmove hphase hheld hrow hjob hbegun =>
      by_cases hkey : r.key = r'.key
      · have hsame := hrow.stored
        rw [← hkey, hr] at hsame
        cases hsame
        subst hmove
        refine .reported i env epoch faults task progress ha hi hheld ?_ ?_
        · -- a task that skips the job or keeps it has attempts left, and the row has as many
          obtain ⟨-, -, -, -, hattempts⟩ := PushDeliveries.heldBy_eq_true.mp hheld
          rcases hw.pushing.sound task (List.mem_of_getElem? hi) progress (Or.inl hphase) with
            h | h | ⟨-, hless⟩
          · exact Or.inl h
          · exact Or.inr h
          · rw [← hattempts, hspent] at hless
            exact absurd hless (lt_irrefl _)
        · rw [hrow.get?, if_pos rfl]
      · refine .stays ?_
        rw [hrow.get?, if_neg hkey]
        exact hr

/-! ## Jobs that are picked up -/

/-- An unfinished job that nobody holds is due for recovery or for a claim. -/
theorem due_of_unheld {r : PushDeliveryRow} (epoch : Int)
    (hstatus : r.status = "queued" ∨ r.status = "sending" ∨ r.Finished) (hopen : ¬ r.Finished)
    (hfree : ¬ (r.status = "sending" ∧ leaseOver epoch r = false)) :
    recoverable epoch r = true ∨ claimable r = true := by
  rcases hstatus with hqueued | hsending | hfinished
  · by_cases hless : r.attempts < 3
    · refine Or.inr ?_
      unfold claimable
      rw [decide_eq_true hqueued, decide_eq_true hless]
      rfl
    · refine Or.inl ?_
      unfold recoverable
      rw [decide_eq_true hqueued, decide_eq_true (not_lt.mp hless)]
      exact Bool.or_true _
  · refine Or.inl ?_
    have hover : leaseOver epoch r = true := by
      cases hl : leaseOver epoch r with
      | true => rfl
      | false => exact absurd ⟨hsending, hl⟩ hfree
    unfold recoverable
    rw [decide_eq_true hsending, hover]
    rfl
  · exact absurd hfinished hopen

/-- A recovery that the store lets through queues the job again or fails it. -/
theorem recovered_of_due (now : String) {epoch : Int} {s : Db} {r : PushDeliveryRow}
    (hr : s.pushDeliveries.get? r.key = some r) (hdue : recoverable epoch r = true) :
    ∃ s', Prog.exec databaseError (PushDeliveries.recoverPushes now epoch) [] s = (.ok (), s') ∧
      s'.pushDeliveries.get? r.key = some (recoveredRow now r) ∧
        (claimable (recoveredRow now r) = true ∨ (recoveredRow now r).Finished) := by
  refine ⟨_, rfl, ?_, ?_⟩
  · change (s.pushDeliveries.update (recoverable epoch) (recoveredRow now) (fun _ => rfl)).get? r.key = _
    exact Table.get?_update_of_pos hr hdue
  · by_cases hspent : 3 ≤ r.attempts
    · exact Or.inr (Or.inr (Or.inl (if_pos hspent)))
    · refine Or.inl ?_
      have hstatus : (recoveredRow now r).status = "queued" := if_neg hspent
      have hless : (recoveredRow now r).attempts < 3 := not_le.mp hspent
      unfold claimable
      rw [decide_eq_true hstatus, decide_eq_true hless]
      rfl

/-- A claim with room for every claimable job hands this one out. -/
theorem claimed_of_due (now : String) (epoch : Int) {limit : Int} {s : Db} {r : PushDeliveryRow}
    (hr : r ∈ s.pushDeliveries.rows) (hdue : claimable r = true)
    (hroom : (s.pushDeliveries.rows.countP claimable : Int) ≤ limit) :
    ∃ jobs s', Prog.exec databaseError (PushDeliveries.claimPushes now epoch limit) [] s =
      (.ok jobs, s') ∧ ∃ job ∈ jobs, job.key = r.key ∧
        job.claimGeneration = r.claimGeneration + 1 := by
  refine ⟨_, _, rfl, PushDeliveries.jobOf (claimedRow now epoch r), ?_, rfl, rfl⟩
  refine List.mem_map.mpr ⟨_, List.mem_map.mpr ⟨r, List.mem_filter.mpr ⟨hr, decide_eq_true ?_⟩, rfl⟩, rfl⟩
  unfold claimedKeys
  have hlength : ((s.pushDeliveries.rows.filter claimable).mergeSort
      fun a b => decide (a.updatedAt ≤ b.updatedAt)).length ≤ (max limit 0).toNat := by
    rw [List.length_mergeSort, ← List.countP_eq_length_filter]
    omega
  rw [List.take_of_length_le hlength]
  exact List.mem_map.mpr ⟨r, List.mem_mergeSort.mpr (List.mem_filter.mpr ⟨hr, hdue⟩), rfl⟩

/-! ## The outbox is safe -/

variable (P) in
/-- What holds of the push outbox of a world, now and after anything that follows. -/
structure PushOutbox (w : World) : Prop where
  bounded : ∀ k, w.begun.count k ≤ 3
  attempts : ∀ r ∈ w.db.pushDeliveries.rows, r.attempts = w.begun.count r.key
  byHolder : ∀ a, (World.step P a w).begun = w.begun ∨
    ∃ i env epoch faults task r, a = .task i (.beginAttempt env epoch faults) ∧
      w.tasks[i]? = some task ∧ r ∈ w.db.pushDeliveries.rows ∧ heldBy epoch task.job r = true ∧
      r.attempts < 3 ∧ (World.step P a w).begun = r.key :: w.begun ∧
      ∀ j other, w.tasks[j]? = some other → other.job.key = r.key →
        other.job.claimGeneration = r.claimGeneration → j = i
  final : ∀ r ∈ w.db.pushDeliveries.rows, r.Finished → ∀ more, (worlds P).Legal more w →
    (((worlds P).run more w).db.pushDeliveries.get? r.key = some r ∨
      ((worlds P).run more w).db.pushDeliveries.get? r.key = none) ∧
    ((worlds P).run more w).begun.count r.key = w.begun.count r.key
  exhausted : ∀ r ∈ w.db.pushDeliveries.rows, r.attempts = 3 →
    (∀ a, Ends P w a r) ∧
    ∀ more, (worlds P).Legal more w →
      ((worlds P).run more w).begun.count r.key = w.begun.count r.key
  pickedUp : ∀ r ∈ w.db.pushDeliveries.rows, ∀ epoch, ¬ r.Finished →
    ¬ (r.status = "sending" ∧ leaseOver epoch r = false) →
      recoverable epoch r = true ∨ claimable r = true
  recovered : ∀ r ∈ w.db.pushDeliveries.rows, ∀ now epoch, recoverable epoch r = true →
    ∃ s', Prog.exec databaseError (PushDeliveries.recoverPushes now epoch) [] w.db = (.ok (), s') ∧
      s'.pushDeliveries.get? r.key = some (recoveredRow now r) ∧
        (claimable (recoveredRow now r) = true ∨ (recoveredRow now r).Finished)
  claimed : ∀ r ∈ w.db.pushDeliveries.rows, claimable r = true → ∀ now epoch (limit : Int),
    (w.db.pushDeliveries.rows.countP claimable : Int) ≤ limit →
      ∃ jobs s', Prog.exec databaseError (PushDeliveries.claimPushes now epoch limit) [] w.db =
        (.ok jobs, s') ∧ ∃ job ∈ jobs, job.key = r.key ∧
          job.claimGeneration = r.claimGeneration + 1

theorem pushOutbox_of_safe {w : World} (hw : PushSafe P w) : PushOutbox P w where
  bounded := hw.pushing.bounded
  attempts r hr := hw.pushing.attempts r.key r (Table.get?_of_mem hr)
  byHolder a := by
    rcases begun_step (P := P) a hw.wellFormed with
      hsame | ⟨i, env, epoch, faults, task, r, ha, hi, hstored, hheld, hless, hbegun⟩
    · exact Or.inl hsame
    · refine Or.inr ⟨i, env, epoch, faults, task, r, ha, hi, Table.mem_of_get? hstored, hheld, hless,
        hbegun, fun j other hj hkey hgen => ?_⟩
      obtain ⟨hkey', -, hgen', -⟩ := PushDeliveries.heldBy_eq_true.mp hheld
      exact eq_of_claim hw.pushing hi hj (Prod.ext (hkey.trans hkey') (hgen.trans hgen'))
  final r hr hfinished more hlegal := by
    have hget := Table.get?_of_mem hr
    have hended := ended_run hw hlegal hfinished
      (n := w.begun.count r.key) ⟨hw.pushing.knownRows r.key r hget, Or.inl hget, rfl⟩
    exact ⟨hended.row, hended.begun⟩
  exhausted r hr hspent := by
    have hget := Table.get?_of_mem hr
    refine ⟨fun a => ends_of_exhausted a hw hget hspent, fun more hlegal => ?_⟩
    have hmore := (begun_suffix hw hlegal).sublist.count_le r.key
    have hmost := (pushSafe_run hw hlegal).pushing.bounded r.key
    have hthree := hw.pushing.attempts r.key r hget
    omega
  pickedUp r hr epoch hopen hfree :=
    due_of_unheld epoch (hw.pushing.statuses r.key r (Table.get?_of_mem hr)) hopen hfree
  recovered r hr now epoch hdue := recovered_of_due now (Table.get?_of_mem hr) hdue
  claimed r hr hdue now epoch limit hroom := claimed_of_due now epoch hr hdue hroom

variable (P) in
/-- The outbox is safe in every world the server and its workers reach. -/
def PushOutboxSafe : Prop :=
  ∀ acts, (worlds P).Legal acts World.empty → PushOutbox P ((worlds P).run acts World.empty)

theorem push_outbox (P : Packages) : PushOutboxSafe P :=
  fun _ hlegal => pushOutbox_of_safe (pushSafe_run pushSafe_empty hlegal)

end Nod.Server
