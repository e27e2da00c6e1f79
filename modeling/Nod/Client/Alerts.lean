import Nod.Client.Delivery

/-
  The notifications of the client runtime on one server profile (`runtime/snapshot.rs`,
  `runtime/sync.rs`, `runtime/workflows.rs`). A task runs a critical section on the reducer and
  only then, with the lock released, emits the candidates and removals it found; tasks interleave
  in any order, and what the server sends is arbitrary.

  While no request changes its pending status under a task that still has an alert about it to
  emit, no task is stopped that alone has to emit a removal, and no opened request turns out
  handled while its candidate stands, candidates and removals alternate and every candidate of a
  request that is no longer pending is removed (`alerts_follow_requests`). Opening breaks it by
  itself (`opened_request_keeps_candidate`).
-/

namespace Nod.Client

open Std Lib Nod.Proto StateReducer

/-! ## Tasks and messages -/

inductive Alert where
  | candidate (serverId : String) (request : Request)
  | removed (serverId requestId : String)

/-- The critical sections of the tasks. -/
inductive Task where
  | refresh (reply : SnapshotReply) (revision : Nat) (now : String)
  | receive (envelope : SyncEnvelope)
  | opened (request : Request)
  | submitted (serverId : String) (request : Request)
  /-- the sync task finds that the registration was refused -/
  | revoked

/-- The state after the section, the candidates and the removals to emit. -/
def Task.perform (s : StateReducer) : Task → StateReducer × List Request × List String
  | .refresh reply revision now => refreshLocked s reply revision now
  | .receive envelope =>
    ((envelopeLocked s envelope).1, (envelopeLocked s envelope).2,
      (notificationRemovalFor envelope).toList)
  | .opened request => (openLocked s request, [], [])
  | .submitted serverId request =>
    (targetedLocked s serverId request, [], if isPending request then [] else [request.id])
  | .revoked => ((revokedLocked s).1, [], (revokedLocked s).2)

/-- What a task still has to emit; its candidates wait for the alert preferences. -/
structure Job where
  preferences : Option DeviceNotificationPreferences
  candidates : List Request
  removals : List String

structure Runtime where
  serverId : String
  client : StateReducer
  jobs : List Job
  emitted : List Alert

def alertPreferences (s : StateReducer) : DeviceNotificationPreferences :=
  let deviceId := s.selectedServer.bind (·.deviceId)
  ((s.state.devices.find? fun device => some device.id == deviceId).map
    (·.notificationPreferences)).getD default

def hideContent (preferences : DeviceNotificationPreferences) (request : Request) : Request :=
  if preferences.hideContent then
    { request with notification := ⟨true, none, none⟩ }
  else request

inductive RuntimeAction where
  | perform (task : Task)
  /-- the next emission of a task: its preferences, then candidates, then removals -/
  | emit (job : Nat) (now : DateTime)
  /-- a task is stopped with what it still has to emit, as a disconnect stops the sync task -/
  | abort (job : Nat)

/-- The next emission of a job, and the message if there is one. -/
def Job.next (serverId : String) (s : StateReducer) (now : DateTime) (j : Job) :
    Job × List Alert :=
  match j.preferences, j.candidates, j.removals with
  | none, _, _ => ({ j with preferences := some (alertPreferences s) }, [])
  | some preferences, request :: rest, _ =>
    ({ j with candidates := rest },
      if preferences.allowsAlert request.channelId now then
        [.candidate serverId (hideContent preferences request)]
      else [])
  | some _, [], requestId :: rest => ({ j with removals := rest }, [.removed serverId requestId])
  | some _, [], [] => (j, [])

def Runtime.step (w : Runtime) : RuntimeAction → Runtime
  | .perform task =>
    let (client, candidates, removals) := task.perform w.client
    { w with client := client, jobs := w.jobs ++ [⟨none, candidates, removals⟩] }
  | .emit i now =>
    match w.jobs[i]? with
    | none => w
    | some j =>
      { w with
        jobs := w.jobs.set i (j.next w.serverId w.client now).1
        emitted := w.emitted ++ (j.next w.serverId w.client now).2 }
  | .abort i =>
    match w.jobs[i]? with
    | none => w
    | some j => { w with jobs := w.jobs.set i { j with candidates := [], removals := [] } }

def Runtime.run (w : Runtime) (actions : List RuntimeAction) : Runtime :=
  actions.foldl Runtime.step w

def Runtime.start (serverId : String) (servers : List ServerProfile)
    (selectedServerId : Option String) (notificationSound : String) : Runtime where
  serverId := serverId
  client := StateReducer.new servers selectedServerId notificationSound
  jobs := []
  emitted := []

def Runtime.unsentCandidates (w : Runtime) : List Request := w.jobs.flatMap (·.candidates)

def Runtime.unsentRemovals (w : Runtime) : List String := w.jobs.flatMap (·.removals)

/-! ## The emitted alerts of a request -/

/-- Whether the last alert about the request is a candidate. -/
def standing (id : String) (emitted : List Alert) : Bool :=
  emitted.foldl
    (fun last alert =>
      match alert with
      | .candidate _ request => if request.id = id then true else last
      | .removed _ requestId => if requestId = id then false else last)
    false

/-- Between two candidates of one request there is a removal of it. -/
def NoRepeat (emitted : List Alert) : Prop :=
  ∀ xs ys zs s₁ s₂ r₁ r₂,
    emitted = xs ++ .candidate s₁ r₁ :: (ys ++ .candidate s₂ r₂ :: zs) → r₁.id = r₂.id →
      ∃ s, Alert.removed s r₁.id ∈ ys

theorem standing_concat_candidate (id : String) (emitted : List Alert) (serverId : String)
    (r : Request) :
    standing id (emitted ++ [.candidate serverId r]) =
      if r.id = id then true else standing id emitted := by
  unfold standing
  rw [List.foldl_append]
  rfl

theorem standing_concat_removed (id : String) (emitted : List Alert) (serverId requestId : String) :
    standing id (emitted ++ [.removed serverId requestId]) =
      if requestId = id then false else standing id emitted := by
  unfold standing
  rw [List.foldl_append]
  rfl

/-- A candidate that no longer stands was followed by a removal. -/
theorem removed_of_not_standing {xs ys : List Alert} {serverId : String} {r : Request}
    (h : standing r.id (xs ++ .candidate serverId r :: ys) = false) :
    ∃ s, Alert.removed s r.id ∈ ys := by
  induction ys using List.reverseRecOn with
  | nil =>
    rw [standing_concat_candidate, if_pos rfl] at h
    cases h
  | append_singleton ys alert ih =>
    have hassoc : xs ++ .candidate serverId r :: (ys ++ [alert]) =
        (xs ++ .candidate serverId r :: ys) ++ [alert] := by simp
    rw [hassoc] at h
    cases alert with
    | candidate serverId' r' =>
      rw [standing_concat_candidate] at h
      split at h
      · cases h
      · obtain ⟨s, hs⟩ := ih h
        exact ⟨s, List.mem_append_left _ hs⟩
    | removed serverId' requestId =>
      rw [standing_concat_removed] at h
      split at h
      · rename_i hid
        exact ⟨serverId', List.mem_append_right _ (by rw [hid]; exact List.mem_singleton.mpr rfl)⟩
      · obtain ⟨s, hs⟩ := ih h
        exact ⟨s, List.mem_append_left _ hs⟩

theorem noRepeat_concat {emitted : List Alert} (h : NoRepeat emitted) (alert : Alert)
    (hnew : ∀ serverId r, alert = .candidate serverId r → standing r.id emitted = false) :
    NoRepeat (emitted ++ [alert]) := by
  intro xs ys zs s₁ s₂ r₁ r₂ hsplit hid
  cases zs using List.reverseRecOn with
  | nil =>
    have hparts : emitted ++ [alert] =
        (xs ++ .candidate s₁ r₁ :: ys) ++ [.candidate s₂ r₂] := by rw [hsplit]; simp
    obtain ⟨hemitted, halert⟩ := List.append_inj' hparts rfl
    have hstand := hnew s₂ r₂ (List.singleton_inj.mp halert)
    rw [← hid, hemitted] at hstand
    exact removed_of_not_standing hstand
  | append_singleton zs last =>
    have hparts : emitted ++ [alert] =
        (xs ++ .candidate s₁ r₁ :: (ys ++ .candidate s₂ r₂ :: zs)) ++ [last] := by
      rw [hsplit]; simp
    obtain ⟨hemitted, -⟩ := List.append_inj' hparts rfl
    exact h xs ys zs s₁ s₂ r₁ r₂ hemitted hid

/-! ## What a critical section does to the pending requests -/

/-- The section takes the version of the request, which is not stale. -/
def TakesVersion (s : StateReducer) (task : Task) (r : Request) : Prop :=
  staleFor s r = false ∧
    match task with
    | .refresh _ _ _ | .revoked => False
    | .receive envelope => envelope.payload.request = some r
    | .opened request => request = r
    | .submitted serverId request => request = r ∧ s.state.selectedServerId = some serverId

/-- The section makes a pending request handled, or drops it. -/
def Leaves (s : StateReducer) (task : Task) (id : String) : Prop :=
  pendingChannel s.requestsById id ≠ none ∧
    ((∃ r, TakesVersion s task r ∧ r.id = id ∧ isPending r = false) ∨
      (∃ reply revision now, task = .refresh reply revision now ∧
        pendingChannel (s.mergeSnapshot reply.requests revision) id = none) ∨
      task = .revoked)

/-- The section makes a request pending and announces it. -/
def Announces (s : StateReducer) (task : Task) (id : String) : Prop :=
  pendingChannel s.requestsById id = none ∧
    ((∃ r envelope, task = .receive envelope ∧ envelope.kind = syncKindCreated ∧
        TakesVersion s task r ∧ r.id = id ∧ isPending r = true) ∨
      ∃ reply revision now, task = .refresh reply revision now ∧
        s.hasLoadedPendingSnapshot = true ∧
        pendingChannel (s.mergeSnapshot reply.requests revision) id ≠ none)

theorem cached_perform {s : StateReducer} (h : Cached s) (task : Task) :
    Cached (task.perform s).1 := by
  cases task with
  | refresh reply revision now => exact cached_refreshLocked h reply revision now
  | receive envelope => exact cached_envelopeLocked h envelope
  | opened request => exact cached_openLocked h request
  | submitted serverId request => exact cached_targetedLocked h serverId request
  | revoked => exact cached_revokedLocked s

/-- The map after a section that replaces no map: one version taken, or no change. -/
theorem perform_map (s : StateReducer) (task : Task)
    (hrefresh : ∀ reply revision now, task ≠ .refresh reply revision now)
    (hrevoked : task ≠ .revoked) :
    (task.perform s).1.requestsById = s.requestsById ∨
      ∃ r, TakesVersion s task r ∧
        (task.perform s).1.requestsById = s.requestsById.insert r.id r := by
  have htook : ∀ {s' : StateReducer} {r : Request}, Took s s' r → TakesVersion s task r ∨
      staleFor s r = true → s'.requestsById = s.requestsById ∨
        ∃ r, TakesVersion s task r ∧ s'.requestsById = s.requestsById.insert r.id r := by
    intro s' r ht hwhy
    unfold Took at ht
    split at ht
    · exact .inl ht.1
    · rcases hwhy with htakes | hstale
      · exact .inr ⟨r, htakes, ht.1⟩
      · contradiction
  have hfresh : ∀ r, (staleFor s r = false → TakesVersion s task r) →
      TakesVersion s task r ∨ staleFor s r = true := by
    intro r hr
    cases hstale : staleFor s r with
    | true => exact .inr rfl
    | false => exact .inl (hr hstale)
  cases task with
  | refresh reply revision now => exact absurd rfl (hrefresh reply revision now)
  | revoked => exact absurd rfl hrevoked
  | receive envelope =>
    cases hreq : envelope.payload.request with
    | none =>
      left
      show (envelopeLocked s envelope).1.requestsById = _
      rw [envelopeLocked_of_none hreq]
      exact (sameMap_beforeRequest s envelope).1
    | some r => exact htook (took_envelopeLocked hreq) (hfresh r fun hf => ⟨hf, hreq⟩)
  | opened request => exact htook (took_openLocked s request) (hfresh _ fun hf => ⟨hf, rfl⟩)
  | submitted serverId request =>
    show (targetedLocked s serverId request).requestsById = _ ∨ _
    by_cases hserver : s.state.selectedServerId = some serverId
    · refine htook ?_ (hfresh request fun hf => ⟨hf, rfl, hserver⟩)
      unfold targetedLocked
      rw [if_pos hserver]
      exact took_applyRequestUpdate s request
    · left
      unfold targetedLocked
      rw [if_neg hserver]

/-- A request that stops being pending has left. -/
theorem leaves_of_perform {s : StateReducer} {task : Task} {id : String}
    (hbefore : pendingChannel s.requestsById id ≠ none)
    (hafter : pendingChannel (task.perform s).1.requestsById id = none) : Leaves s task id := by
  refine ⟨hbefore, ?_⟩
  by_cases hrefresh : ∃ reply revision now, task = .refresh reply revision now
  · obtain ⟨reply, revision, now, rfl⟩ := hrefresh
    refine .inr (.inl ⟨reply, revision, now, rfl, ?_⟩)
    rw [← (refreshLocked_map s reply revision now).1]
    exact hafter
  by_cases hrevoked : task = .revoked
  · exact .inr (.inr hrevoked)
  · left
    rcases perform_map s task (fun reply revision now he => hrefresh ⟨reply, revision, now, he⟩)
      hrevoked with hsame | ⟨r, htakes, hinsert⟩
    · rw [hsame] at hafter
      exact absurd hafter hbefore
    · rw [hinsert, pendingChannel_insert] at hafter
      split at hafter
      · rename_i hid
        refine ⟨r, htakes, hid.symm, ?_⟩
        split at hafter
        · cases hafter
        · simpa using ‹¬isPending r = true›
      · exact absurd hafter hbefore

/-- Every section but an open emits a removal of what left. -/
theorem mem_removals_of_leaves {s : StateReducer} (h : Cached s) {task : Task} {id : String}
    (hopen : ∀ r, task ≠ .opened r) (hleaves : Leaves s task id) :
    id ∈ (task.perform s).2.2 := by
  obtain ⟨hbefore, ⟨r, ⟨-, htakes⟩, rfl, hhandled⟩ | ⟨reply, revision, now, rfl, hgone⟩ | rfl⟩ :=
    hleaves
  · cases task with
    | refresh reply revision now => exact absurd htakes id
    | revoked => exact absurd htakes id
    | receive envelope =>
      show r.id ∈ (notificationRemovalFor envelope).toList
      unfold notificationRemovalFor
      rw [show envelope.payload.request = some r from htakes]
      simp [Option.filter, hhandled]
    | opened request => exact absurd rfl (hopen request)
    | submitted serverId request =>
      obtain ⟨rfl, -⟩ := htakes
      show request.id ∈ if isPending request then [] else [request.id]
      rw [hhandled, if_neg Bool.false_ne_true]
      exact List.mem_singleton.mpr rfl
  · refine (mem_removed_refreshLocked h).mpr ⟨hbefore, ?_⟩
    rw [(refreshLocked_map s reply revision now).1]
    exact hgone
  · exact (mem_pendingRequestIds h).mpr hbefore

/-- A section has candidates only for the requests it announces, which are pending after it. -/
theorem of_mem_candidates_perform {s : StateReducer} (h : Cached s) {task : Task} {c : Request}
    (hc : c ∈ (task.perform s).2.1) :
    Announces s task c.id ∧ pendingChannel (task.perform s).1.requestsById c.id ≠ none := by
  have hpending : ∀ {m : ExtTreeMap String Request}, m[c.id]? = some c → isPending c = true →
      pendingChannel m c.id ≠ none := by
    intro m hget hp
    unfold pendingChannel
    rw [hget]
    simp [Option.filter, hp]
  cases task with
  | refresh reply revision now =>
    obtain ⟨hloaded, hget, hp, hprev⟩ := (mem_candidates_refreshLocked h).mp hc
    have hafter := hpending hget hp
    refine ⟨⟨hprev, .inr ⟨reply, revision, now, rfl, hloaded, ?_⟩⟩, hafter⟩
    rw [← (refreshLocked_map s reply revision now).1]
    exact hafter
  | receive envelope =>
    obtain ⟨hreq, hfresh, hp, hprev⟩ := mem_candidates_envelopeLocked h hc
    have hkind : envelope.kind = syncKindCreated := by
      have hc' : c ∈ (envelopeLocked s envelope).2 := hc
      rw [envelopeLocked_of_some hreq] at hc'
      dsimp only at hc'
      split at hc'
      · exact (‹_ ∧ _›).1
      · exact absurd hc' List.not_mem_nil
    exact ⟨⟨hprev, .inl ⟨c, envelope, rfl, hkind, ⟨hfresh, hreq⟩, rfl, hp⟩⟩,
      hpending ((took_envelopeLocked hreq).get?_self hfresh) hp⟩
  | opened request => exact absurd hc List.not_mem_nil
  | submitted serverId request => exact absurd hc List.not_mem_nil
  | revoked => exact absurd hc List.not_mem_nil

theorem nodup_candidates_perform {s : StateReducer} (h : Cached s) (task : Task) :
    ((task.perform s).2.1.map Request.id).Nodup := by
  cases task with
  | refresh reply revision now => exact nodup_candidates_refreshLocked h reply revision now
  | receive envelope =>
    show ((envelopeLocked s envelope).2.map Request.id).Nodup
    cases hreq : envelope.payload.request with
    | none =>
      rw [envelopeLocked_of_none hreq]
      exact List.nodup_nil
    | some r =>
      rw [envelopeLocked_of_some hreq]
      dsimp only
      split
      · exact List.nodup_singleton r.id
      · exact List.nodup_nil
  | opened request => exact List.nodup_nil
  | submitted serverId request => exact List.nodup_nil
  | revoked => exact List.nodup_nil

/-! ## Candidates and removals alternate -/

/-- The condition on a step: no request leaves while a candidate of it is still to be emitted,
    nor by an open while its candidate stands; none is announced while a removal of it is still to
    be emitted; and no task is stopped that alone has to remove a candidate which stands for a
    request that is not pending. -/
def Orderly (w : Runtime) : RuntimeAction → Prop
  | .perform task =>
    (∀ id, Leaves w.client task id →
      (∀ c ∈ w.unsentCandidates, c.id ≠ id) ∧
        ∀ r, task = .opened r → standing id w.emitted = false) ∧
    ∀ id, Announces w.client task id → id ∉ w.unsentRemovals
  | .emit _ _ => True
  | .abort i =>
    ∀ j, w.jobs[i]? = some j → ∀ id ∈ j.removals, standing id w.emitted = true →
      pendingChannel w.client.requestsById id ≠ none ∨
        ∃ k j', k ≠ i ∧ w.jobs[k]? = some j' ∧ id ∈ j'.removals

structure Tidy (w : Runtime) : Prop where
  cached : Cached w.client
  noRepeat : NoRepeat w.emitted
  distinct : (w.unsentCandidates.map Request.id).Nodup
  unsent : ∀ c ∈ w.unsentCandidates,
    pendingChannel w.client.requestsById c.id ≠ none ∧ standing c.id w.emitted = false
  followed : ∀ id, standing id w.emitted = true →
    pendingChannel w.client.requestsById id ≠ none ∨ id ∈ w.unsentRemovals

theorem tidy_start (serverId : String) (servers : List ServerProfile)
    (selectedServerId : Option String) (notificationSound : String) :
    Tidy (Runtime.start serverId servers selectedServerId notificationSound) where
  cached := (coherent_new servers selectedServerId notificationSound).toCached
  noRepeat xs ys zs s₁ s₂ r₁ r₂ hsplit := by
    have := congrArg List.length hsplit
    simp [Runtime.start] at this
  distinct := List.nodup_nil
  unsent c hc := absurd hc List.not_mem_nil
  followed id hid := by cases hid

theorem tidy_perform {w : Runtime} (h : Tidy w) {task : Task}
    (horderly : Orderly w (.perform task)) : Tidy (w.step (.perform task)) := by
  obtain ⟨hleave, hannounce⟩ := horderly
  have hcached := cached_perform h.cached task
  have hcandidates : (w.step (.perform task)).unsentCandidates =
      w.unsentCandidates ++ (task.perform w.client).2.1 := by
    unfold Runtime.unsentCandidates Runtime.step
    simp
  have hremovals : (w.step (.perform task)).unsentRemovals =
      w.unsentRemovals ++ (task.perform w.client).2.2 := by
    unfold Runtime.unsentRemovals Runtime.step
    simp
  -- a request with a candidate still to be emitted stays pending
  have hstay : ∀ c ∈ w.unsentCandidates,
      pendingChannel (task.perform w.client).1.requestsById c.id ≠ none := by
    intro c hc hgone
    exact (hleave c.id (leaves_of_perform (h.unsent c hc).1 hgone)).1 c hc rfl
  have hnew : ∀ c ∈ (task.perform w.client).2.1, standing c.id w.emitted = false := by
    intro c hc
    obtain ⟨hann, -⟩ := of_mem_candidates_perform h.cached hc
    by_contra hstand
    rcases h.followed c.id (by simpa using hstand) with hpend | hunsent
    · exact hpend hann.1
    · exact hannounce c.id hann hunsent
  refine ⟨hcached, h.noRepeat, ?_, ?_, ?_⟩
  · rw [hcandidates, List.map_append, List.nodup_append]
    refine ⟨h.distinct, nodup_candidates_perform h.cached task, ?_⟩
    rintro id hold id' hfresh rfl
    obtain ⟨c, hc, rfl⟩ := List.mem_map.mp hold
    obtain ⟨c', hc', hid⟩ := List.mem_map.mp hfresh
    have hann := (of_mem_candidates_perform h.cached hc').1
    rw [hid] at hann
    exact (h.unsent c hc).1 hann.1
  · rw [hcandidates]
    intro c hc
    rcases List.mem_append.mp hc with hold | hfresh
    · exact ⟨hstay c hold, (h.unsent c hold).2⟩
    · exact ⟨(of_mem_candidates_perform h.cached hfresh).2, hnew c hfresh⟩
  · rw [hremovals]
    intro id hstand
    by_cases hafter : pendingChannel (task.perform w.client).1.requestsById id = none
    · right
      rcases h.followed id hstand with hpend | hunsent
      · have hleaves := leaves_of_perform hpend hafter
        refine List.mem_append_right _ (mem_removals_of_leaves h.cached (fun r hopen => ?_) hleaves)
        have hnot := (hleave id hleaves).2 r hopen
        have hstand' : standing id w.emitted = true := hstand
        rw [hnot] at hstand'
        cases hstand'
      · exact List.mem_append_left _ hunsent
    · exact .inl hafter

theorem set_split {jobs : List Job} {i : Nat} {j : Job} (h : jobs[i]? = some j) :
    ∃ before after, jobs = before ++ j :: after ∧
      ∀ j', jobs.set i j' = before ++ j' :: after := by
  obtain ⟨hi, hget⟩ := List.getElem?_eq_some_iff.mp h
  refine ⟨jobs.take i, jobs.drop (i + 1), ?_, fun j' => List.set_eq_take_cons_drop j' hi⟩
  rw [← hget, ← List.drop_eq_getElem_cons hi, List.take_append_drop]

@[simp] theorem hideContent_id (preferences : DeviceNotificationPreferences) (r : Request) :
    (hideContent preferences r).id = r.id := by
  unfold hideContent
  split <;> rfl

/-- One emission: nothing, the next candidate (sent or muted), or the next removal. -/
theorem next_cases (serverId : String) (s : StateReducer) (now : DateTime) (j : Job) :
    ((j.next serverId s now).2 = [] ∧ (j.next serverId s now).1.candidates = j.candidates ∧
      (j.next serverId s now).1.removals = j.removals) ∨
    (∃ r, j.candidates = r :: (j.next serverId s now).1.candidates ∧
      (j.next serverId s now).1.removals = j.removals ∧
      ((j.next serverId s now).2 = [] ∨
        ∃ r', r'.id = r.id ∧ (j.next serverId s now).2 = [.candidate serverId r'])) ∨
    (∃ id, j.removals = id :: (j.next serverId s now).1.removals ∧
      (j.next serverId s now).1.candidates = j.candidates ∧
      (j.next serverId s now).2 = [.removed serverId id]) := by
  obtain ⟨preferences, candidates, removals⟩ := j
  cases preferences with
  | none => exact .inl ⟨rfl, rfl, rfl⟩
  | some preferences =>
    cases candidates with
    | cons r rest =>
      refine .inr (.inl ⟨r, rfl, rfl, ?_⟩)
      by_cases hallow : preferences.allowsAlert r.channelId now = true
      · exact .inr ⟨hideContent preferences r, hideContent_id preferences r, if_pos hallow⟩
      · exact .inl (if_neg hallow)
    | nil =>
      cases removals with
      | nil => exact .inl ⟨rfl, rfl, rfl⟩
      | cons id rest => exact .inr (.inr ⟨id, rfl, rfl, rfl⟩)

/-- The emission of a task on the runtime: at most one alert less to emit. -/
theorem emit_cases (w : Runtime) (i : Nat) (now : DateTime) :
    (w.step (.emit i now)).client = w.client ∧
      (((w.step (.emit i now)).emitted = w.emitted ∧
          (w.step (.emit i now)).unsentCandidates = w.unsentCandidates ∧
          (w.step (.emit i now)).unsentRemovals = w.unsentRemovals) ∨
        (∃ xs r ys, w.unsentCandidates = xs ++ r :: ys ∧
          (w.step (.emit i now)).unsentCandidates = xs ++ ys ∧
          (w.step (.emit i now)).unsentRemovals = w.unsentRemovals ∧
          ((w.step (.emit i now)).emitted = w.emitted ∨
            ∃ r', r'.id = r.id ∧
              (w.step (.emit i now)).emitted = w.emitted ++ [.candidate w.serverId r'])) ∨
        (∃ xs id ys, w.unsentRemovals = xs ++ id :: ys ∧
          (w.step (.emit i now)).unsentRemovals = xs ++ ys ∧
          (w.step (.emit i now)).unsentCandidates = w.unsentCandidates ∧
          (w.step (.emit i now)).emitted = w.emitted ++ [.removed w.serverId id])) := by
  unfold Runtime.step
  dsimp only
  cases hj : w.jobs[i]? with
  | none => exact ⟨rfl, .inl ⟨rfl, rfl, rfl⟩⟩
  | some j =>
    obtain ⟨before, after, hjobs, hset⟩ := set_split hj
    have hold : w.unsentCandidates =
          before.flatMap (·.candidates) ++ (j.candidates ++ after.flatMap (·.candidates)) ∧
        w.unsentRemovals =
          before.flatMap (·.removals) ++ (j.removals ++ after.flatMap (·.removals)) := by
      unfold Runtime.unsentCandidates Runtime.unsentRemovals
      rw [hjobs]
      simp only [List.flatMap_append, List.flatMap_cons, and_self]
    unfold Runtime.unsentCandidates Runtime.unsentRemovals at hold ⊢
    dsimp only
    rw [hset, hold.1, hold.2]
    simp only [List.flatMap_append, List.flatMap_cons]
    refine ⟨trivial, ?_⟩
    rcases next_cases w.serverId w.client now j with ⟨hsent, hcand, hrem⟩ |
      ⟨r, hcand, hrem, hsent⟩ | ⟨id, hrem, hcand, hsent⟩
    · rw [hsent, hcand, hrem, List.append_nil]
      exact .inl ⟨rfl, rfl, rfl⟩
    · refine .inr (.inl ⟨before.flatMap (·.candidates), r,
        (j.next w.serverId w.client now).1.candidates ++ after.flatMap (·.candidates), ?_, rfl,
        by rw [hrem], ?_⟩)
      · rw [hcand, List.cons_append]
      · rcases hsent with hnone | ⟨r', hid, hone⟩
        · rw [hnone, List.append_nil]
          exact .inl rfl
        · rw [hone]
          exact .inr ⟨r', hid, rfl⟩
    · refine .inr (.inr ⟨before.flatMap (·.removals), id,
        (j.next w.serverId w.client now).1.removals ++ after.flatMap (·.removals), ?_, rfl,
        by rw [hcand], by rw [hsent]⟩)
      rw [hrem, List.cons_append]

theorem tidy_emit {w : Runtime} (h : Tidy w) (i : Nat) (now : DateTime) :
    Tidy (w.step (.emit i now)) := by
  obtain ⟨hclient, hcase⟩ := emit_cases w i now
  generalize w.step (.emit i now) = w' at *
  have hcached : Cached w'.client := hclient ▸ h.cached
  rcases hcase with ⟨hemitted, hcand, hrem⟩ | ⟨xs, r, ys, hold, hcand, hrem, hsent⟩ |
    ⟨xs, id, ys, hold, hrem, hcand, hemitted⟩
  · refine ⟨hcached, hemitted ▸ h.noRepeat, hcand ▸ h.distinct, ?_, ?_⟩
    · rw [hcand, hclient, hemitted]
      exact h.unsent
    · rw [hrem, hclient, hemitted]
      exact h.followed
  · have hr := h.unsent r (by rw [hold]; exact List.mem_append_right _ List.mem_cons_self)
    have hdistinct := h.distinct
    rw [hold, List.map_append, List.map_cons, List.nodup_middle, List.nodup_cons,
      ← List.map_append] at hdistinct
    have hrest : ∀ c ∈ w'.unsentCandidates, c ∈ w.unsentCandidates ∧ c.id ≠ r.id := by
      intro c hc
      rw [hcand] at hc
      refine ⟨?_, fun hid => hdistinct.1 (hid ▸ List.mem_map_of_mem hc)⟩
      rw [hold]
      simp only [List.mem_append, List.mem_cons] at hc ⊢
      tauto
    have hstanding : ∀ id, standing id w'.emitted =
        standing id w.emitted ∨ (id = r.id ∧ standing id w'.emitted = true) := by
      intro id
      rcases hsent with hsame | ⟨r', hid, hone⟩
      · rw [hsame]
        exact .inl rfl
      · rw [hone, standing_concat_candidate]
        split
        · exact .inr ⟨by rw [← hid]; exact (‹r'.id = id›).symm, rfl⟩
        · exact .inl rfl
    refine ⟨hcached, ?_, hcand ▸ hdistinct.2, fun c hc => ?_, fun id hid => ?_⟩
    · rcases hsent with hsame | ⟨r', hid, hone⟩
      · exact hsame ▸ h.noRepeat
      · rw [hone]
        refine noRepeat_concat h.noRepeat _ fun s r'' he => ?_
        rw [← (Alert.candidate.inj he).2, hid]
        exact hr.2
    · obtain ⟨hmem, hne⟩ := hrest c hc
      rw [hclient]
      rcases hstanding c.id with hsame | ⟨heq, -⟩
      · rw [hsame]
        exact h.unsent c hmem
      · exact absurd heq hne
    · rw [hclient, hrem]
      rcases hstanding id with hsame | ⟨rfl, -⟩
      · exact h.followed id (hsame ▸ hid)
      · exact .inl hr.1
  · have hstanding : ∀ id', standing id' w'.emitted = true →
        standing id' w.emitted = true ∧ id' ≠ id := by
      intro id' hs
      rw [hemitted, standing_concat_removed] at hs
      split at hs
      · cases hs
      · exact ⟨hs, fun he => ‹¬id = id'› he.symm⟩
    refine ⟨hcached, ?_, hcand ▸ h.distinct, fun c hc => ?_, fun id' hid' => ?_⟩
    · rw [hemitted]
      exact noRepeat_concat h.noRepeat _ fun s r he => by cases he
    · rw [hcand] at hc
      rw [hclient]
      refine ⟨(h.unsent c hc).1, ?_⟩
      by_contra hstand
      have hbefore := (hstanding c.id (by simpa using hstand)).1
      rw [(h.unsent c hc).2] at hbefore
      cases hbefore
    · obtain ⟨hbefore, hne⟩ := hstanding id' hid'
      rw [hclient, hrem]
      refine (h.followed id' hbefore).imp_right fun hmem => ?_
      rw [hold] at hmem
      simp only [List.mem_append, List.mem_cons] at hmem ⊢
      tauto

/-- What a stopped task leaves to the other ones. -/
theorem abort_cases (w : Runtime) (i : Nat) :
    w.step (.abort i) = w ∨
      ((w.step (.abort i)).client = w.client ∧ (w.step (.abort i)).emitted = w.emitted ∧
        (w.step (.abort i)).unsentCandidates.Sublist w.unsentCandidates ∧
        ∀ k j, k ≠ i → w.jobs[k]? = some j →
          ∀ id ∈ j.removals, id ∈ (w.step (.abort i)).unsentRemovals) := by
  unfold Runtime.step
  dsimp only
  cases hj : w.jobs[i]? with
  | none => exact .inl rfl
  | some j =>
    obtain ⟨before, after, hjobs, hset⟩ := set_split hj
    refine .inr ⟨rfl, rfl, ?_, fun k j' hk hget id hid => ?_⟩
    · unfold Runtime.unsentCandidates
      dsimp only
      rw [hset, hjobs, List.flatMap_append, List.flatMap_append, List.flatMap_cons,
        List.flatMap_cons]
      exact (List.Sublist.refl _).append ((List.nil_sublist _).append (List.Sublist.refl _))
    · refine List.mem_flatMap.mpr ⟨j', List.mem_of_getElem? (i := k) ?_, hid⟩
      rw [List.getElem?_set_ne hk.symm]
      exact hget

theorem tidy_abort {w : Runtime} (h : Tidy w) {i : Nat} (horderly : Orderly w (.abort i)) :
    Tidy (w.step (.abort i)) := by
  obtain hsame | ⟨hclient, hemitted, hcand, hothers⟩ := abort_cases w i
  · rw [hsame]
    exact h
  refine ⟨hclient ▸ h.cached, hemitted ▸ h.noRepeat, (hcand.map Request.id).nodup h.distinct,
    fun c hc => ?_, fun id hid => ?_⟩
  · rw [hclient, hemitted]
    exact h.unsent c (hcand.subset hc)
  · rw [hemitted] at hid
    rw [hclient]
    obtain hpend | hunsent := h.followed id hid
    · exact .inl hpend
    obtain ⟨j, hj, hremoval⟩ := List.mem_flatMap.mp hunsent
    obtain ⟨k, hk⟩ := List.getElem?_of_mem hj
    by_cases hki : k = i
    · subst hki
      obtain hpend | ⟨k', j', hne, hget, hmem⟩ := horderly j hk id hremoval hid
      · exact .inl hpend
      · exact .inr (hothers k' j' hne hget id hmem)
    · exact .inr (hothers k j hki hk id hremoval)

theorem tidy_step {w : Runtime} (h : Tidy w) {a : RuntimeAction} (horderly : Orderly w a) :
    Tidy (w.step a) := by
  cases a with
  | perform task => exact tidy_perform h horderly
  | emit i now => exact tidy_emit h i now
  | abort i => exact tidy_abort h horderly

/-- Every step of the run meets the condition. -/
def OrderlyRun (w : Runtime) : List RuntimeAction → Prop
  | [] => True
  | a :: rest => Orderly w a ∧ OrderlyRun (w.step a) rest

theorem tidy_run {w : Runtime} (h : Tidy w) {actions : List RuntimeAction}
    (horderly : OrderlyRun w actions) : Tidy (w.run actions) := by
  induction actions generalizing w with
  | nil => exact h
  | cons a rest ih => exact ih (tidy_step h horderly.1) horderly.2

/-- The client holds no pending version of the request. -/
def NotPending (s : StateReducer) (id : String) : Prop :=
  ∀ held, s.requestsById[id]? = some held → isPending held = false

theorem NotPending.pendingChannel {s : StateReducer} {id : String} (h : NotPending s id) :
    pendingChannel s.requestsById id = none := by
  unfold Nod.Client.pendingChannel
  cases hget : s.requestsById[id]? with
  | none => rfl
  | some held => simp [Option.filter, h held hget]

/-- The alerts of one state of a run. -/
structure AlertsFollow (w : Runtime) : Prop where
  noRepeat : NoRepeat w.emitted
  /-- a removal was emitted after each candidate of a request that is not pending any more, or
      its task is still to emit it -/
  removed : ∀ xs ys serverId r, w.emitted = xs ++ .candidate serverId r :: ys →
    NotPending w.client r.id →
      (∃ s, Alert.removed s r.id ∈ ys) ∨ r.id ∈ w.unsentRemovals
  /-- no candidate of such a request is still to be emitted -/
  unsent : ∀ c ∈ w.unsentCandidates, ¬ NotPending w.client c.id

theorem Tidy.alertsFollow {w : Runtime} (h : Tidy w) : AlertsFollow w where
  noRepeat := h.noRepeat
  removed xs ys serverId r hsplit hnot := by
    cases hstand : standing r.id w.emitted with
    | true =>
      rcases h.followed r.id hstand with hpend | hunsent
      · exact absurd hnot.pendingChannel hpend
      · exact .inr hunsent
    | false =>
      rw [hsplit] at hstand
      exact .inl (removed_of_not_standing hstand)
  unsent c hc hnot := (h.unsent c hc).1 hnot.pendingChannel

/-- The alerts in every state that the runtime reaches by orderly steps. -/
def AlertsSound (start : Runtime) : Prop :=
  ∀ actions, OrderlyRun start actions → AlertsFollow (start.run actions)

theorem alerts_follow_requests (serverId : String) (servers : List ServerProfile)
    (selectedServerId : Option String) (notificationSound : String) :
    AlertsSound (Runtime.start serverId servers selectedServerId notificationSound) := by
  intro actions horderly
  have hstart := tidy_start serverId servers selectedServerId notificationSound
  exact (tidy_run hstart horderly).alertsFollow

/-! ## An opened request keeps its candidate

  A card is announced; it is resolved while the socket is down; opening it takes the resolved
  version and emits nothing. -/

section OpenedRequest

/-- What the alert preferences are read from. -/
def SameAccount (s s' : StateReducer) : Prop :=
  s'.state.devices = s.state.devices ∧ s'.state.servers = s.state.servers ∧
    s'.state.selectedServerId = s.state.selectedServerId

theorem sameAccount_updateVisibleRequests (s : StateReducer) :
    SameAccount s s.updateVisibleRequests := by
  unfold updateVisibleRequests
  obtain ⟨selected, heq, -⟩ := ensureSelectedRequest_spec
    { s with
      state :=
        { s.state with
          requests := s.visibleRequestsForSelectedChannel (OrdMap.values s.requestsById) } }
  rw [heq]
  exact ⟨rfl, rfl, rfl⟩

theorem sameAccount_applyRequestUpdate (s : StateReducer) (r : Request) :
    SameAccount s (s.applyRequestUpdate r).1 := by
  cases hstale : staleFor s r with
  | true =>
    rw [applyRequestUpdate_of_stale hstale]
    exact ⟨rfl, rfl, rfl⟩
  | false =>
    obtain ⟨counts, known, hframe⟩ := updatePendingTracking_frame s r
    unfold staleFor at hstale
    unfold applyRequestUpdate
    rw [hstale, if_neg Bool.false_ne_true]
    simp only [hframe]
    exact sameAccount_updateVisibleRequests _

theorem sameAccount_replaceRequests (s : StateReducer) (snapshot : ExtTreeMap String Request) :
    SameAccount s (s.replaceRequests snapshot).1 := by
  unfold replaceRequests
  dsimp only
  obtain ⟨selected, heq, -⟩ := ensureSelectedRequest_spec
    (updateVisibleRequests (rememberPendingRequests
      { s with
        requestsById := snapshot
        requestRevisions := s.requestRevisions.filter fun id _ => snapshot.contains id
        state :=
          { s.state with
            pendingCountsByChannel :=
              countPendingByChannel (pendingRequests (OrdMap.values snapshot)) } }
      (pendingRequests (OrdMap.values snapshot))))
  rw [heq]
  exact sameAccount_updateVisibleRequests _

theorem alertPreferences_congr {s s' : StateReducer} (h : SameAccount s s') :
    alertPreferences s' = alertPreferences s := by
  unfold alertPreferences selectedServer
  rw [h.1, h.2.1, h.2.2]

def sampleProfile : ServerProfile where
  id := "server-1"
  credentialId := none
  name := "Nod"
  baseUrlString := "http://127.0.0.1:7070"
  deviceName := "Laptop"
  deviceId := some "device-1"
  userId := some "alice"
  userName := some "Alice"

def sampleRuntime : Runtime :=
  Runtime.start "server-1" [sampleProfile] (some "server-1") "default"

def untilOpened : List RuntimeAction :=
  [.perform (.refresh (sampleReply []) 0 "12:00:00"),
    .perform (.receive (createdEvent pendingCard)), .emit 1 (noon 0 zero_lt_sixty),
    .emit 1 (noon 0 zero_lt_sixty), .perform (.opened handledCard), .emit 0 (noon 2),
    .emit 2 (noon 2)]

def clientRefreshed : StateReducer :=
  (refreshLocked sampleRuntime.client (sampleReply []) 0 "12:00:00").1

def clientAnnounced : StateReducer :=
  (envelopeLocked clientRefreshed (createdEvent pendingCard)).1

theorem clientRefreshed_empty (id : String) : clientRefreshed.requestsById[id]? = none := by
  have hlisted : (listedById (sampleReply []).requests)[id]? = none := by
    unfold listedById sampleReply
    simp
  have hstart : sampleRuntime.client.requestsById[id]? = none := by
    unfold sampleRuntime Runtime.start StateReducer.new
    simp
  unfold clientRefreshed
  rw [(refreshLocked_map _ _ _ _).1, getElem?_mergeSnapshot, hstart, hlisted]

theorem cached_clientRefreshed : Cached clientRefreshed :=
  cached_refreshLocked (coherent_new [sampleProfile] (some "server-1") "default").toCached _ _ _

theorem clientRefreshed_messages :
    (refreshLocked sampleRuntime.client (sampleReply []) 0 "12:00:00").2 = ([], []) := by
  have hcached : Cached sampleRuntime.client :=
    (coherent_new [sampleProfile] (some "server-1") "default").toCached
  refine Prod.ext ?_ (List.eq_nil_iff_forall_not_mem.mpr fun id hid => ?_)
  · rw [candidates_refreshLocked]
    rfl
  · exact ((mem_removed_refreshLocked hcached).mp hid).1 rfl

theorem clientAnnounced_candidates :
    (envelopeLocked clientRefreshed (createdEvent pendingCard)).2 = [pendingCard] := by
  have hnew : ((beforeRequest clientRefreshed (createdEvent pendingCard)).applyRequestUpdate
      pendingCard).2 = true := by
    refine (newPending_iff (cached_beforeRequest cached_clientRefreshed _) pendingCard).mpr
      ⟨?_, rfl, ?_⟩
    · unfold staleFor
      rw [(sameMap_beforeRequest _ _).1, clientRefreshed_empty]
      rfl
    · unfold pendingChannel
      rw [(sameMap_beforeRequest _ _).1, clientRefreshed_empty]
      rfl
  rw [envelopeLocked_of_some (r := pendingCard) rfl, hnew, if_pos ⟨rfl, rfl⟩]

theorem clientAnnounced_held : clientAnnounced.requestsById["req-1"]? = some pendingCard := by
  refine (took_envelopeLocked (r := pendingCard) rfl).get?_self ?_
  unfold staleFor
  rw [clientRefreshed_empty]
  rfl

theorem clientAnnounced_preferences :
    alertPreferences clientAnnounced = ⟨false, [], none⟩ := by
  have hupdate : SameAccount (beforeRequest clientRefreshed (createdEvent pendingCard))
      clientAnnounced := by
    unfold clientAnnounced
    rw [envelopeLocked_of_some (r := pendingCard) rfl]
    exact sameAccount_applyRequestUpdate _ _
  obtain ⟨lastError, lastSyncedAt, heq⟩ :=
    refreshLocked_fst sampleRuntime.client (sampleReply []) 0 "12:00:00"
  have hrefresh : SameAccount (beforeListing sampleRuntime.client (sampleReply []))
      clientRefreshed := by
    unfold clientRefreshed
    rw [heq]
    exact sameAccount_replaceRequests _ _
  rw [alertPreferences_congr hupdate]
  show alertPreferences clientRefreshed = _
  rw [alertPreferences_congr hrefresh]
  rfl

theorem run_untilOpened :
    ∃ preferences preferences',
      sampleRuntime.run untilOpened =
        { serverId := "server-1"
          client := openLocked clientAnnounced handledCard
          jobs := [⟨some preferences, [], []⟩, ⟨some ⟨false, [], none⟩, [], []⟩,
            ⟨some preferences', [], []⟩]
          emitted := [.candidate "server-1" pendingCard] } := by
  have hfirst : sampleRuntime.step (.perform (.refresh (sampleReply []) 0 "12:00:00")) =
      ⟨"server-1", clientRefreshed, [⟨none, [], []⟩], []⟩ := by
    show Runtime.mk "server-1" clientRefreshed
      [⟨none, (refreshLocked sampleRuntime.client (sampleReply []) 0 "12:00:00").2.1,
        (refreshLocked sampleRuntime.client (sampleReply []) 0 "12:00:00").2.2⟩] [] = _
    rw [clientRefreshed_messages]
  have hsecond : (⟨"server-1", clientRefreshed, [⟨none, [], []⟩], []⟩ : Runtime).step
      (.perform (.receive (createdEvent pendingCard))) =
      ⟨"server-1", clientAnnounced, [⟨none, [], []⟩, ⟨none, [pendingCard], []⟩], []⟩ := by
    show Runtime.mk "server-1" clientAnnounced [⟨none, [], []⟩,
      ⟨none, (envelopeLocked clientRefreshed (createdEvent pendingCard)).2, []⟩] [] = _
    rw [clientAnnounced_candidates]
  refine ⟨alertPreferences (openLocked clientAnnounced handledCard),
    alertPreferences (openLocked clientAnnounced handledCard), ?_⟩
  show Runtime.run (Runtime.step (sampleRuntime.step _) _) _ = _
  rw [hfirst, hsecond]
  show Runtime.run ⟨"server-1", clientAnnounced,
    [⟨none, [], []⟩, ⟨some (alertPreferences clientAnnounced), [pendingCard], []⟩], []⟩ _ = _
  rw [clientAnnounced_preferences]
  rfl

/-- All tasks are done, the resolved version is held, and the candidate still stands. -/
theorem opened_request_keeps_candidate :
    (sampleRuntime.run untilOpened).emitted = [.candidate "server-1" pendingCard] ∧
      (sampleRuntime.run untilOpened).unsentCandidates = [] ∧
      (sampleRuntime.run untilOpened).unsentRemovals = [] ∧
      (sampleRuntime.run untilOpened).client.requestsById["req-1"]? = some handledCard ∧
      isPending handledCard = false := by
  obtain ⟨preferences, preferences', hrun⟩ := run_untilOpened
  rw [hrun]
  refine ⟨rfl, rfl, rfl, ?_, rfl⟩
  have hfresh : staleFor clientAnnounced handledCard = false := by
    unfold staleFor
    rw [show handledCard.id = "req-1" from rfl, clientAnnounced_held]
    decide
  exact (took_openLocked clientAnnounced handledCard).get?_self hfresh

end OpenedRequest

end Nod.Client
