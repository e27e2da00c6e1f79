import Nod.Lib.Lease
import Nod.Lib.Machine
import Nod.Server.CallbackDeliveries
import Nod.Server.PushDeliveries
import Nod.Server.Queues

/-
  The server with its background workers. Calls, claims and settlements of any number of workers
  interleave as whole statements; a worker keeps every claim it was handed for as long as it likes,
  so slow workers, crashes and restarts are runs in which a claim is used late or not at all.
  A lease token is a new random UUID, so a claim never gets one that was handed out before.
  Proved: the tables stay well-formed under every action (`wellFormed_act`, `wellFormed_worlds`).
-/

namespace Nod.Server

open Lib Nod.Proto
open CallbackDeliveries (CallbackClaim)
open LifecyclePublish (PublishClaim)
open PushDeliveries (PushTask Phase Prepared Sent)

variable (P : Packages)

/-! ## Worlds -/

/-- The database and what has happened to its queues, the latest first: lease tokens handed out,
    claims handed out, deliveries and events marked, push tasks, begun attempts, and what the calls
    and statements took from outside. -/
structure World where
  db : Db
  tokens : List String
  callbackClaims : List CallbackClaim
  delivered : List (String × Nat)
  publishClaims : List PublishClaim
  published : List String
  tasks : List PushTask
  begun : List (String × String)
  envs : List Env

def World.empty : World := ⟨.empty, [], [], [], [], [], [], [], []⟩

/-- One step of a push task. -/
inductive TaskMove where
  | prepare (found : Prepared)
  | beginAttempt (env : Env) (epoch : Int) (faults : List Bool)
  | finishSend (sent : Sent)
  | clearToken (epoch : Int) (faults : List Bool)
  | report (env : Env) (epoch : Int) (faults : List Bool)

inductive Act where
  | call (c : Call)
  | claimCallback (env : Env) (faults : List Bool)
  | completeCallback (env : Env) (claim : CallbackClaim) (status : Nat) (faults : List Bool)
  | retryCallback (env : Env) (claim : CallbackClaim) (status : Option Nat) (blockedPolicy : Bool)
      (faults : List Bool)
  | claimEvent (env : Env) (faults : List Bool)
  | publishEvent (env : Env) (claim : PublishClaim) (streamSeq : Int) (faults : List Bool)
  | retryEvent (env : Env) (claim : PublishClaim) (faults : List Bool)
  | recoverPushes (env : Env) (epoch : Int) (faults : List Bool)
  | claimPushes (env : Env) (epoch limit : Int) (faults : List Bool)
  | task (i : Nat) (move : TaskMove)

/-! ## Steps -/

/-- A task, the database and the attempts begun after one step of the task; a step that is not the
    task's next one changes nothing. -/
def PushTask.step (move : TaskMove) (task : PushTask) (db : Db) :
    PushTask × Db × List (String × String) :=
  match task.phase, move with
  | .preparing, .prepare found => (task.prepare found, db, [])
  | .prepared pushToken, .beginAttempt env epoch faults =>
    match Prog.exec databaseError (PushDeliveries.beginAttempt (env.nowString 0) epoch task.job)
        faults db with
    | (.ok job, db') => (⟨job, .sending pushToken⟩, db', [job.key])
    | (.error _, db') => ({ task with phase := .stopped }, db', [])
  | .sending pushToken, .finishSend sent => (task.finishSend pushToken sent, db, [])
  | .clearing pushToken progress, .clearToken epoch faults =>
    ({ task with phase := .reporting progress },
      (Prog.exec databaseError (PushDeliveries.clearInvalidPushToken epoch task.job pushToken)
        faults db).2, [])
  | .reporting progress, .report env epoch faults =>
    (task.reported progress,
      (Prog.exec databaseError (PushDeliveries.updatePush (env.nowString 0) epoch task.job progress)
        faults db).2, [])
  | _, _ => (task, db, [])

/-- The tasks that start on claimed jobs. -/
def startTasks (jobs : List PushDeliveries.PushJob) : List PushTask := jobs.map fun job => ⟨job, .preparing⟩

def World.step (a : Act) (w : World) : World :=
  match a with
  | .call c => { w with db := c.after P w.db, envs := c.env.toList ++ w.envs }
  | .claimCallback env faults =>
    let r := Prog.exec databaseError (CallbackDeliveries.claimDue env) faults w.db
    { w with
      db := r.2, tokens := env.newId 0 :: w.tokens, envs := env :: w.envs
      callbackClaims := (r.1.toOption.bind id).toList ++ w.callbackClaims }
  | .completeCallback env claim status faults =>
    let r := Prog.exec databaseError (CallbackDeliveries.complete env claim status) faults w.db
    { w with
      db := r.2, envs := env :: w.envs
      delivered := if r.1.toOption = some true
        then (((w.db.callbacks.get? claim.deliveryId).map fun c => (c.requestId, c.requestRevision)).toList)
          ++ w.delivered
        else w.delivered }
  | .retryCallback env claim status blockedPolicy faults =>
    { w with
      envs := env :: w.envs
      db := (Prog.exec databaseError (CallbackDeliveries.retry env claim status blockedPolicy)
        faults w.db).2 }
  | .claimEvent env faults =>
    let r := Prog.exec databaseError (LifecyclePublish.claimDue env) faults w.db
    { w with
      db := r.2, tokens := env.newId 0 :: w.tokens, envs := env :: w.envs
      publishClaims := (r.1.toOption.bind id).toList ++ w.publishClaims }
  | .publishEvent env claim streamSeq faults =>
    let r := Prog.exec databaseError (LifecyclePublish.published env claim streamSeq) faults w.db
    { w with
      db := r.2, envs := env :: w.envs
      published := if r.1.toOption = some true then claim.eventId :: w.published else w.published }
  | .retryEvent env claim faults =>
    { w with
      envs := env :: w.envs
      db := (Prog.exec databaseError (LifecyclePublish.retry env claim) faults w.db).2 }
  | .recoverPushes env epoch faults =>
    { w with
      db := (Prog.exec databaseError (PushDeliveries.recoverPushes (env.nowString 0) epoch)
        faults w.db).2 }
  | .claimPushes env epoch limit faults =>
    let r := Prog.exec databaseError (PushDeliveries.claimPushes (env.nowString 0) epoch limit)
      faults w.db
    { w with db := r.2, tasks := w.tasks ++ startTasks (r.1.toOption.getD []) }
  | .task i move =>
    match w.tasks[i]? with
    | none => w
    | some task =>
      let r := PushTask.step move task w.db
      { w with tasks := w.tasks.set i r.1, db := r.2.1, begun := r.2.2 ++ w.begun }

/-- A claim takes a token of its own; a settlement is of a claim that was handed out. -/
def World.allows (a : Act) (w : World) : Prop :=
  match a with
  | .claimCallback env _ => env.newId 0 ∉ w.tokens
  | .claimEvent env _ => env.newId 0 ∉ w.tokens
  | .completeCallback _ claim _ _ => claim ∈ w.callbackClaims
  | .retryCallback _ claim _ _ _ => claim ∈ w.callbackClaims
  | .publishEvent _ claim _ _ => claim ∈ w.publishClaims
  | .retryEvent _ claim _ => claim ∈ w.publishClaims
  | _ => True

/-- Everything the server and its workers can do. -/
def worlds : Machine World Act := ⟨World.step P, World.allows⟩

variable {P}

/-! ## Well-formed worlds -/

/-- The same delivery, however often it was tried. -/
structure SameDelivery (c c' : CallbackRow) : Prop where
  deliveryId : c'.deliveryId = c.deliveryId
  eventId : c'.eventId = c.eventId
  requestId : c'.requestId = c.requestId
  requestRevision : c'.requestRevision = c.requestRevision
  url : c'.url = c.url
  payload : c'.payload = c.payload

theorem sameDelivery_refl (c : CallbackRow) : SameDelivery c c := ⟨rfl, rfl, rfl, rfl, rfl, rfl⟩

theorem SameDelivery.trans {a b c : CallbackRow} (h : SameDelivery a b) (k : SameDelivery b c) :
    SameDelivery a c :=
  ⟨k.deliveryId.trans h.deliveryId, k.eventId.trans h.eventId, k.requestId.trans h.requestId,
    k.requestRevision.trans h.requestRevision, k.url.trans h.url, k.payload.trans h.payload⟩

/-- Rows of the journal keep their entries, and those of the outbox their events. -/
structure Requeued (s s' : Db) : Prop where
  events : ∃ f : EventRow → EventRow, s'.events.rows = s.events.rows.map f ∧
    ∀ e ∈ s.events.rows, (f e).seq = e.seq ∧ (f e).eventId = e.eventId ∧ (f e).requestId = e.requestId ∧
      (f e).entry = e.entry
  callbacks : ∀ c' ∈ s'.callbacks.rows, ∃ c ∈ s.callbacks.rows, SameDelivery c c'
  keyed : (∀ d ∈ s.devices.rows, Keyed P d) → ∀ d ∈ s'.devices.rows, Keyed P d
  rest : s' = { s with
    devices := s'.devices, events := s'.events, callbacks := s'.callbacks
    pushDeliveries := s'.pushDeliveries }

theorem requeued_of_pushes {s s' : Db} (h : s' = { s with pushDeliveries := s'.pushDeliveries }) :
    Requeued (P := P) s s' := by
  rw [h]
  refine ⟨⟨id, (List.map_id _).symm, fun _ _ => ⟨rfl, rfl, rfl, rfl⟩⟩, fun c hc => ⟨c, hc, sameDelivery_refl c⟩,
    fun h => h, rfl⟩

theorem Requeued.eventsOf {s s' : Db} (h : Requeued (P := P) s s') (id : String) :
    (s'.eventsOf id).map EventRow.entry = (s.eventsOf id).map EventRow.entry := by
  obtain ⟨f, hrows, hf⟩ := h.events
  unfold Db.eventsOf
  rw [hrows, List.filter_map, List.map_map]
  have hsame : s.events.rows.filter ((fun e : EventRow => decide (e.requestId = id)) ∘ f) =
      s.events.rows.filter fun e => decide (e.requestId = id) := by
    refine List.filter_congr fun e he => ?_
    rw [Function.comp_apply, (hf e he).2.2.1]
  rw [hsame]
  exact List.map_congr_left fun e he => (hf e (List.mem_filter.mp he).1).2.2.2

theorem Requeued.track {s s' : Db} (h : Requeued (P := P) s s') (id : String) :
    s'.track id = s.track id := by
  have hentries := h.eventsOf id
  unfold Db.track
  rw [hentries, h.rest]
  rfl

theorem Requeued.wellFormed {s s' : Db} (hs : WellFormed P s) (h : Requeued (P := P) s s') :
    WellFormed P s' := by
  obtain ⟨f, hrows, hf⟩ := h.events
  have hseqs : s'.events.rows.map EventRow.seq = s.events.rows.map EventRow.seq := by
    rw [hrows, List.map_map]
    exact List.map_congr_left fun e he => (hf e he).1
  have hids : s'.events.rows.map EventRow.eventId = s.events.rows.map EventRow.eventId := by
    rw [hrows, List.map_map]
    exact List.map_congr_left fun e he => (hf e he).2.1
  refine ⟨⟨?_, ?_, ?_, ?_, ?_, ?_, h.keyed hs.keyed, ?_, ?_, ?_⟩, fun id => ?_⟩
  · rw [h.rest]
    exact hs.salted
  · rw [h.rest]
    exact hs.options
  · rw [h.rest]
    exact hs.recipients
  · rw [h.rest]
    exact hs.decisions
  · rw [h.rest]
    exact hs.known
  · rw [h.rest]
    exact hs.userIds
  · rw [hseqs]
    exact hs.ordered
  · intro e he
    rw [hrows] at he
    obtain ⟨e₀, he₀, rfl⟩ := List.mem_map.mp he
    have hseq : s'.eventSeq = s.eventSeq := by rw [h.rest]
    rw [(hf e₀ he₀).1, hseq]
    exact hs.seqs e₀ he₀
  · intro c' hc'
    obtain ⟨c, hc, hsame⟩ := h.callbacks c' hc'
    obtain ⟨hknown, hdelivery⟩ := hs.callbacks c hc
    rw [hsame.eventId, hsame.deliveryId]
    refine ⟨?_, hdelivery⟩
    rw [ne_eq, Table.get?_eq_none, hids, ← Table.get?_eq_none]
    exact hknown
  · rw [h.track]
    exact hs.polls id

theorem requeued_refl (s : Db) : Requeued (P := P) s s :=
  requeued_of_pushes rfl

theorem requeued_callback {s s' : Db} {c c' : CallbackRow}
    (h : CallbackDeliveries.Rewritten s s' c c') (hsame : SameDelivery c c') :
    Requeued (P := P) s s' := by
  have hevents : s'.events = s.events := by rw [h.rest]
  have hdevices : s'.devices = s.devices := by rw [h.rest]
  refine ⟨⟨id, ?_, fun _ _ => ⟨rfl, rfl, rfl, rfl⟩⟩, fun d hd => ?_, ?_, ?_⟩
  · rw [hevents, List.map_id]
  · have hget := Table.get?_of_mem hd
    rw [h.get?] at hget
    split at hget
    · cases hget
      exact ⟨c, Table.mem_of_get? h.stored, hsame⟩
    · exact ⟨d, Table.mem_of_get? hget, sameDelivery_refl d⟩
  · rw [hdevices]
    exact fun hkeyed => hkeyed
  · conv_lhs => rw [h.rest]
    rw [h.rest]

theorem requeued_event {s s' : Db} {e e' : EventRow} (h : LifecyclePublish.Rewritten s s' e e')
    (hseq : e'.seq = e.seq) (hid : e'.eventId = e.eventId) (hrequest : e'.requestId = e.requestId)
    (hentry : e'.entry = e.entry) : Requeued (P := P) s s' := by
  have hcallbacks : s'.callbacks = s.callbacks := by rw [h.rest]
  have hdevices : s'.devices = s.devices := by rw [h.rest]
  refine ⟨⟨_, h.rows, fun r hr => ?_⟩, fun c hc => ?_, ?_, ?_⟩
  · split
    · rename_i hkey
      have hget := Table.get?_of_mem hr
      rw [hkey, h.stored] at hget
      cases hget
      exact ⟨hseq, hid, hrequest, hentry⟩
    · exact ⟨rfl, rfl, rfl, rfl⟩
  · rw [hcallbacks] at hc
    exact ⟨c, hc, sameDelivery_refl c⟩
  · rw [hdevices]
    exact fun hkeyed => hkeyed
  · conv_lhs => rw [h.rest]
    rw [h.rest]

theorem requeued_devices {s : Db} {devices : Table DeviceRow.id}
    (h : devices = s.devices ∨ ∃ p, devices =
      s.devices.update p (fun d => { d with pushToken := none }) fun _ => rfl) :
    Requeued (P := P) s { s with devices := devices } := by
  refine ⟨⟨id, (List.map_id _).symm, fun _ _ => ⟨rfl, rfl, rfl, rfl⟩⟩, fun c hc => ⟨c, hc, sameDelivery_refl c⟩,
    fun hkeyed d hd => ?_, rfl⟩
  rcases h with rfl | ⟨p, rfl⟩
  · exact hkeyed d hd
  · obtain ⟨d₀, hd₀, rfl⟩ := List.mem_map.mp hd
    obtain ⟨hid, halgorithm, hkey⟩ := hkeyed d₀ hd₀
    split
    · exact ⟨hid, halgorithm, hkey⟩
    · exact ⟨hid, halgorithm, hkey⟩

/-! ## What each statement leaves -/

section Statements

variable (env : Env) (faults : List Bool) (s : Db)

theorem requeued_claimCallback : Requeued (P := P) s
    (Prog.exec databaseError (CallbackDeliveries.claimDue env) faults s).2 := by
  rcases CallbackDeliveries.exec_claimDue env faults s with
    (he | ⟨he, -⟩) | ⟨c, db', until_, -, -, hrewritten, he⟩
  · rw [he]
    exact requeued_refl s
  · rw [he]
    exact requeued_refl s
  · rw [he]
    exact requeued_callback hrewritten ⟨rfl, rfl, rfl, rfl, rfl, rfl⟩

theorem requeued_settleCallback (now : String) (claim : CallbackClaim)
    {f : CallbackRow → CallbackRow} {hf : ∀ c, (f c).deliveryId = c.deliveryId}
    (hsame : ∀ c, SameDelivery c (f c)) : Requeued (P := P) s
      (Prog.exec databaseError (CallbackDeliveries.settle now claim f hf) faults s).2 := by
  rcases CallbackDeliveries.exec_settle now claim f hf faults s with
    ⟨r, he, -⟩ | ⟨c, db', -, hrewritten, he⟩
  · rw [he]
    exact requeued_refl s
  · rw [he]
    exact requeued_callback hrewritten (hsame c)

theorem requeued_completeCallback (claim : CallbackClaim) (status : Nat) : Requeued (P := P) s
    (Prog.exec databaseError (CallbackDeliveries.complete env claim status) faults s).2 := by
  unfold CallbackDeliveries.complete
  split
  · exact requeued_refl s
  · exact requeued_settleCallback faults s _ claim fun _ => ⟨rfl, rfl, rfl, rfl, rfl, rfl⟩

theorem requeued_claimEvent : Requeued (P := P) s
    (Prog.exec databaseError (LifecyclePublish.claimDue env) faults s).2 := by
  rcases LifecyclePublish.exec_claimDue env faults s with
    (he | ⟨he, -⟩) | ⟨e, db', until_, -, -, hrewritten, he⟩
  · rw [he]
    exact requeued_refl s
  · rw [he]
    exact requeued_refl s
  · rw [he]
    exact requeued_event hrewritten rfl rfl rfl rfl

theorem requeued_settleEvent (now : String) (claim : PublishClaim) {f : EventRow → EventRow}
    {hf : ∀ e, (f e).eventId = e.eventId} (hseq : ∀ e, (f e).seq = e.seq)
    (hrequest : ∀ e, (f e).requestId = e.requestId) (hentry : ∀ e, (f e).entry = e.entry) :
    Requeued (P := P) s
      (Prog.exec databaseError (LifecyclePublish.settle now claim f hf) faults s).2 := by
  rcases LifecyclePublish.exec_settle now claim f hf faults s with
    ⟨r, he, -⟩ | ⟨e, db', -, hrewritten, he⟩
  · rw [he]
    exact requeued_refl s
  · rw [he]
    exact requeued_event hrewritten (hseq e) (hf e) (hrequest e) (hentry e)

theorem requeued_task (move : TaskMove) (task : PushTask) : Requeued (P := P) s
    (PushTask.step move task s).2.1 := by
  obtain ⟨job, phase⟩ := task
  unfold PushTask.step
  cases phase <;> cases move <;> dsimp only
  case prepared.beginAttempt pushToken env epoch faults =>
    rcases PushDeliveries.exec_beginAttempt (env.nowString 0) epoch job faults s with
      he | ⟨r, db', -, -, hrewritten, he⟩
    · rw [he]
      exact requeued_refl s
    · rw [he]
      exact requeued_of_pushes hrewritten.rest
  case clearing.clearToken pushToken progress epoch faults =>
    obtain ⟨devices, he, hdevices⟩ :=
      PushDeliveries.exec_clearInvalidPushToken epoch job pushToken faults s
    rw [he]
    exact requeued_devices hdevices
  case reporting.report progress env epoch faults =>
    rcases PushDeliveries.exec_updatePush (env.nowString 0) epoch job progress faults s with
      he | ⟨r, db', -, hrewritten, he⟩
    · rw [he]
      exact requeued_refl s
    · rw [he]
      exact requeued_of_pushes hrewritten.rest
  all_goals exact requeued_refl s

end Statements

/-- A push task leaves journal and outbox alone. -/
theorem task_aside (move : TaskMove) (task : PushTask) (s : Db) :
    (PushTask.step move task s).2.1.callbacks = s.callbacks ∧
      (PushTask.step move task s).2.1.events = s.events := by
  obtain ⟨job, phase⟩ := task
  unfold PushTask.step
  cases phase <;> cases move <;> dsimp only
  case prepared.beginAttempt pushToken env epoch faults =>
    rcases PushDeliveries.exec_beginAttempt (env.nowString 0) epoch job faults s with
      he | ⟨r, db', -, -, hrewritten, he⟩
    · rw [he]
      exact ⟨rfl, rfl⟩
    · rw [he, hrewritten.rest]
      exact ⟨rfl, rfl⟩
  case clearing.clearToken pushToken progress epoch faults =>
    obtain ⟨devices, he, -⟩ := PushDeliveries.exec_clearInvalidPushToken epoch job pushToken faults s
    rw [he]
    exact ⟨rfl, rfl⟩
  case reporting.report progress env epoch faults =>
    rcases PushDeliveries.exec_updatePush (env.nowString 0) epoch job progress faults s with
      he | ⟨r, db', -, hrewritten, he⟩
    · rw [he]
      exact ⟨rfl, rfl⟩
    · rw [he, hrewritten.rest]
      exact ⟨rfl, rfl⟩
  all_goals exact ⟨rfl, rfl⟩

/-- Only calls do more than work on the queues. -/
theorem requeued_step {a : Act} (ha : ∀ c, a ≠ .call c) (w : World) :
    Requeued (P := P) w.db (World.step P a w).db := by
  cases a with
  | call c => exact absurd rfl (ha c)
  | claimCallback env faults => exact requeued_claimCallback env faults w.db
  | completeCallback env claim status faults =>
    exact requeued_completeCallback env faults w.db claim status
  | retryCallback env claim status blockedPolicy faults =>
    exact requeued_settleCallback faults w.db _ claim fun _ => ⟨rfl, rfl, rfl, rfl, rfl, rfl⟩
  | claimEvent env faults => exact requeued_claimEvent env faults w.db
  | publishEvent env claim streamSeq faults =>
    exact requeued_settleEvent faults w.db _ claim (fun _ => rfl) (fun _ => rfl) fun _ => rfl
  | retryEvent env claim faults =>
    exact requeued_settleEvent faults w.db _ claim (fun _ => rfl) (fun _ => rfl) fun _ => rfl
  | recoverPushes env epoch faults =>
    change Requeued w.db (Prog.exec databaseError (PushDeliveries.recoverPushes _ epoch) faults w.db).2
    rcases PushDeliveries.exec_recoverPushes (env.nowString 0) epoch faults w.db with
      he | ⟨db', hupdated, he⟩
    · rw [he]
      exact requeued_refl w.db
    · rw [he]
      exact requeued_of_pushes hupdated.rest
  | claimPushes env epoch limit faults =>
    change Requeued w.db
      (Prog.exec databaseError (PushDeliveries.claimPushes _ epoch limit) faults w.db).2
    rcases PushDeliveries.exec_claimPushes (env.nowString 0) epoch limit faults w.db with
      he | ⟨db', jobs, hupdated, -, he⟩
    · rw [he]
      exact requeued_refl w.db
    · rw [he]
      exact requeued_of_pushes hupdated.rest
  | task i move =>
    unfold World.step
    dsimp only
    cases w.tasks[i]? with
    | none => exact requeued_refl w.db
    | some task => exact requeued_task w.db move task

theorem wellFormed_step (a : Act) {w : World} (hw : WellFormed P w.db) :
    WellFormed P (World.step P a w).db := by
  cases a with
  | call c => exact (moves_call c hw).wellFormed hw
  | _ => exact (requeued_step (fun c h => by cases h) w).wellFormed hw

end Nod.Server
