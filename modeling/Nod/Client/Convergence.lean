import Nod.Client.Delivery

/-
  Live sync end to end: server mutations, the broadcasts sent after their commits in any order,
  the eligibility check and lag of the socket, and the client's snapshots and live applications.

  The client ends with exactly what the server lists as long as, from the start of the last
  snapshot's fetch on, the registration stands and a live event carries the present version of a
  listed request or one that the reducer can tell to be old by the listed version
  (`live_sync_converges`). A late event of a request that is not listed any more is applied
  (`late_event_survives`): the reducer compares with held versions only.
-/

namespace Nod.Client

open Std Lib Nod.Proto StateReducer

/-! ## The stages of live sync -/

/-- What the server has for one user. -/
structure UserView where
  /-- the present version of each request, as projected for the user -/
  requests : ExtTreeMap String Request
  /-- the requests a snapshot lists -/
  listed : List String
  /-- the requests whose live events pass the eligibility check -/
  eligible : List String

def UserView.listing (v : UserView) (id : String) : Option Request :=
  if id ∈ v.listed then v.requests[id]? else none

structure SyncWorld where
  server : UserView
  /-- broadcasts of committed mutations, not sent yet -/
  outbox : List SyncEnvelope
  socket : List SyncEnvelope
  fetch : Option SnapshotFetch
  client : StateReducer

inductive SyncAction where
  /-- a commit: new versions, what is listed and eligible after it, and its broadcasts -/
  | mutate (changed : List Request) (listed eligible : List String)
      (broadcasts : List SyncEnvelope)
  /-- the socket takes a broadcast; any of those still to be sent -/
  | deliver (i : Nat)
  /-- the socket lagged behind or its safety net fired -/
  | resync (skipped : Nat)
  | receive
  /-- the connection ends, with what it has buffered -/
  | disconnect
  /-- the registration was refused: the sync task clears the loaded data and ends -/
  | clearRefused
  | startSnapshot
  | answerSnapshot (reply : SnapshotReply)
  | applySnapshot (now : String)
  | dropSnapshot

def commitVersions (m : ExtTreeMap String Request) (changed : List Request) :
    ExtTreeMap String Request :=
  changed.foldl (fun m r => m.insert r.id r) m

/-- `updated_at` never decreases over the versions of a request. -/
def NoneOlder (m : ExtTreeMap String Request) (changed : List Request) : Prop :=
  ∀ r ∈ changed, ∀ v ∈ m[r.id]?, v.updatedAt ≤ r.updatedAt

instance (m : ExtTreeMap String Request) (changed : List Request) :
    Decidable (NoneOlder m changed) := inferInstanceAs (Decidable (∀ r ∈ changed, _))

/-- The reply lists exactly what the server lists. -/
def Lists (v : UserView) (requests : List Request) : Prop :=
  (∀ r ∈ requests, v.listing r.id = some r) ∧ ∀ id ∈ v.listed, ∀ r ∈ v.requests[id]?, r ∈ requests

instance (v : UserView) (requests : List Request) : Decidable (Lists v requests) :=
  inferInstanceAs (Decidable (_ ∧ _))

def eligibleFor (v : UserView) (envelope : SyncEnvelope) : Bool :=
  envelope.payload.request.all fun r => v.eligible.contains r.id

def resyncRequired : SyncEnvelope where
  kind := "resync_required"
  notificationDelivery := none
  payload := ⟨none, none, none, ∅⟩

def SyncWorld.step (w : SyncWorld) : SyncAction → SyncWorld
  | .mutate changed listed eligible broadcasts =>
    if NoneOlder w.server.requests changed then
      { w with
        server := ⟨commitVersions w.server.requests changed, listed, eligible⟩
        outbox := w.outbox ++ broadcasts }
    else w
  | .deliver i =>
    match w.outbox[i]? with
    | none => w
    | some envelope =>
      { w with
        outbox := w.outbox.eraseIdx i
        socket := if eligibleFor w.server envelope then w.socket ++ [envelope] else w.socket }
  | .resync skipped =>
    { w with outbox := w.outbox.drop skipped, socket := w.socket ++ [resyncRequired] }
  | .receive =>
    match w.socket with
    | [] => w
    | envelope :: rest =>
      { w with
        socket := if isCurrentDeviceRevoked w.client envelope then [] else rest
        client := (envelopeLocked w.client envelope).1 }
  | .disconnect => { w with socket := [] }
  | .clearRefused => { w with socket := [], client := (revokedLocked w.client).1 }
  | .startSnapshot =>
    match w.fetch with
    | none => { w with fetch := some ⟨w.client.revision, none⟩ }
    | some _ => w
  | .answerSnapshot reply =>
    match w.fetch with
    | some ⟨revision, none⟩ =>
      if Lists w.server reply.requests then { w with fetch := some ⟨revision, some reply⟩ } else w
    | _ => w
  | .applySnapshot now =>
    match w.fetch with
    | some ⟨revision, some reply⟩ =>
      { w with fetch := none, client := (refreshLocked w.client reply revision now).1 }
    | _ => w
  | .dropSnapshot => { w with fetch := none }

def SyncWorld.run (w : SyncWorld) (actions : List SyncAction) : SyncWorld :=
  actions.foldl SyncWorld.step w

def SyncWorld.start (servers : List ServerProfile) (selectedServerId : Option String)
    (notificationSound : String) : SyncWorld where
  server := ⟨∅, [], []⟩
  outbox := []
  socket := []
  fetch := none
  client := StateReducer.new servers selectedServerId notificationSound

/-! ## Converging -/

/-- The version is the listed one, or the listed one makes it stale. -/
def Agrees (v : UserView) (r : Request) : Prop :=
  ∃ current, v.listing r.id = some current ∧ (r = current ∨ requestIsStale r current = true)

/-- No mutation. -/
def NoMutation : SyncAction → Prop
  | .mutate .. => False
  | _ => True

/-- The condition on a step: the registration stands, and a live event is ignored as stale or
    agrees with what the server lists. -/
def Punctual (w : SyncWorld) : SyncAction → Prop
  | .receive =>
    ∀ envelope r, w.socket.head? = some envelope → envelope.payload.request = some r →
      staleFor w.client r = true ∨ Agrees w.server r
  | .clearRefused => False
  | _ => True

def PunctualRun (w : SyncWorld) : List SyncAction → Prop
  | [] => True
  | a :: rest => Punctual w a ∧ PunctualRun (w.step a) rest

/-- The client holds exactly what the server lists, each in its present version. -/
def Converged (w : SyncWorld) : Prop :=
  ∀ id : String, w.client.requestsById[id]? = w.server.listing id

/-- Every entry's revision is one the reducer has reached. -/
def RevisionsBounded (s : StateReducer) : Prop :=
  ∀ (id : String) n, s.requestRevisions[id]? = some n → n ≤ s.revision

/-- What holds in every reachable world. -/
structure Based (w : SyncWorld) : Prop where
  cached : Cached w.client
  bounded : RevisionsBounded w.client
  keyed : Keyed w.server.requests
  revision : ∀ f, w.fetch = some f → f.revision ≤ w.client.revision

/-- What holds while nothing has changed on the server since the fetch started. -/
structure Fetching (w : SyncWorld) : Prop extends Based w where
  reply : ∀ revision reply, w.fetch = some ⟨revision, some reply⟩ → Lists w.server reply.requests
  /-- what changed during the fetch agrees with the server -/
  changed : ∀ f, w.fetch = some f → ∀ (id : String) held,
    w.client.requestsById[id]? = some held → w.client.changedDuringFetch f.revision id = true →
      Agrees w.server held

theorem keyed_commitVersions {m : ExtTreeMap String Request} (h : Keyed m)
    (changed : List Request) : Keyed (commitVersions m changed) := by
  unfold commitVersions
  induction changed generalizing m with
  | nil => exact h
  | cons r rest ih => exact ih (keyed_insert h r)

/-- The listing that a reply indexes. -/
theorem Lists.get? {v : UserView} {requests : List Request} (h : Lists v requests)
    (hk : Keyed v.requests) (id : String) : (listedById requests)[id]? = v.listing id := by
  cases hget : (listedById requests)[id]? with
  | some r =>
    obtain ⟨hmem, hid⟩ := of_getElem?_listedById hget
    rw [← hid]
    exact (h.1 r hmem).symm
  | none =>
    have hnot := ne_of_listedById_eq_none hget
    unfold UserView.listing
    split
    · rename_i hlisted
      cases hreq : v.requests[id]? with
      | none => rfl
      | some r => exact absurd (hk id r hreq) (hnot r (h.2 id hlisted r hreq))
    · rfl

theorem revisionsBounded_same {s s' : StateReducer} (h : RevisionsBounded s)
    (hmap : SameMap s s') : RevisionsBounded s' := by
  intro id n hn
  rw [hmap.2.1] at hn
  rw [hmap.2.2]
  exact h id n hn

theorem revisionsBounded_took {s s' : StateReducer} {r : Request} (h : RevisionsBounded s)
    (htook : Took s s' r) : RevisionsBounded s' := by
  unfold Took at htook
  split at htook
  · exact revisionsBounded_same h htook
  · intro id n hn
    rw [htook.2.1, ExtTreeMap.getElem?_insert] at hn
    rw [htook.2.2]
    split at hn
    · exact Nat.le_of_eq (Option.some.inj hn).symm
    · exact (h id n hn).trans (Nat.le_succ _)

/-- At the start of a fetch nothing counts as changed during it. -/
theorem RevisionsBounded.unchanged {s : StateReducer} (h : RevisionsBounded s) (id : String) :
    s.changedDuringFetch s.revision id = false := by
  unfold changedDuringFetch
  cases hn : s.requestRevisions[id]? with
  | none => simp
  | some n =>
    have := h id n hn
    exact decide_eq_false (by simpa using this)

/-- Taking a version that agrees with the server leaves a converged map as it is. -/
theorem converged_took {w w' : SyncWorld} {r : Request} (h : Converged w)
    (hserver : w'.server = w.server) (htook : Took w.client w'.client r)
    (hagrees : staleFor w.client r = true ∨ Agrees w.server r) : Converged w' := by
  have hsame : w'.client.requestsById = w.client.requestsById := by
    cases hstale : staleFor w.client r with
    | true =>
      unfold Took at htook
      rw [if_pos hstale] at htook
      exact htook.1
    | false =>
      rcases hagrees with hstale' | ⟨current, hcurrent, hwhy⟩
      · rw [hstale] at hstale'
        cases hstale'
      · rw [← h r.id] at hcurrent
        rcases hwhy with rfl | hold
        · unfold Took at htook
          rw [hstale, if_neg Bool.false_ne_true] at htook
          rw [htook.1]
          ext id v
          by_cases hid : r.id = id
          · rw [← hid, ExtTreeMap.getElem?_insert_self, hcurrent]
          · rw [OrdMap.getElem?_insert_of_ne hid]
        · unfold staleFor at hstale
          rw [hcurrent, Option.any_some, hold] at hstale
          cases hstale
  intro id
  rw [hsame, hserver]
  exact h id

/-- A fresh snapshot leaves what the server lists. -/
theorem getElem?_mergeSnapshot_fresh {s : StateReducer} {v : UserView} {requests : List Request}
    {revision : Nat} (hk : Keyed v.requests) (hs : Keyed s.requestsById)
    (hlists : Lists v requests)
    (hchanged : ∀ (id : String) held, s.requestsById[id]? = some held →
      s.changedDuringFetch revision id = true → Agrees v held) (id : String) :
    (s.mergeSnapshot requests revision)[id]? = v.listing id := by
  rw [getElem?_mergeSnapshot, hlists.get? hk id]
  cases hheld : s.requestsById[id]? with
  | none => rfl
  | some held =>
    dsimp only
    split
    · rename_i hkept
      unfold keptInSnapshot at hkept
      rw [Bool.and_eq_true, Bool.not_eq_true'] at hkept
      obtain ⟨current, hcurrent, hwhy⟩ := hchanged id held hheld hkept.1
      rw [hs id held hheld] at hcurrent
      rcases hwhy with rfl | hold
      · exact hcurrent.symm
      · rw [hcurrent, Option.any_some, hold] at hkept
        cases hkept.2
    · rfl

theorem based_start (servers : List ServerProfile) (selectedServerId : Option String)
    (notificationSound : String) :
    Based (SyncWorld.start servers selectedServerId notificationSound) where
  cached := (coherent_new servers selectedServerId notificationSound).toCached
  bounded id n h := by
    unfold SyncWorld.start StateReducer.new at h
    simp at h
  keyed id r h := by
    unfold SyncWorld.start at h
    simp at h
  revision f h := by cases h

/-! ### What one step keeps -/

theorem based_same {w w' : SyncWorld} (h : Based w) (hcached : Cached w'.client)
    (hserver : w'.server = w.server) (hfetch : w'.fetch = w.fetch)
    (hmap : SameMap w.client w'.client) : Based w' := by
  refine ⟨hcached, revisionsBounded_same h.bounded hmap, hserver ▸ h.keyed, fun f hf => ?_⟩
  rw [hfetch] at hf
  rw [hmap.2.2]
  exact h.revision f hf

theorem based_took {w w' : SyncWorld} {r : Request} (h : Based w) (hcached : Cached w'.client)
    (hserver : w'.server = w.server) (hfetch : w'.fetch = w.fetch)
    (htook : Took w.client w'.client r) : Based w' := by
  refine ⟨hcached, revisionsBounded_took h.bounded htook, hserver ▸ h.keyed, fun f hf => ?_⟩
  rw [hfetch] at hf
  exact (h.revision f hf).trans htook.revision_le

/-- A live event leaves the map as it is, or takes the version it carries. -/
theorem receive_cases (w : SyncWorld) :
    w.step .receive = w ∨
      ((w.step .receive).server = w.server ∧ (w.step .receive).fetch = w.fetch ∧
        (Cached w.client → Cached (w.step .receive).client) ∧
        (SameMap w.client (w.step .receive).client ∨
          ∃ envelope r, w.socket.head? = some envelope ∧ envelope.payload.request = some r ∧
            Took w.client (w.step .receive).client r)) := by
  unfold SyncWorld.step
  dsimp only
  cases hsocket : w.socket with
  | nil => exact .inl rfl
  | cons envelope rest =>
    refine .inr ⟨rfl, rfl, fun h => cached_envelopeLocked h envelope, ?_⟩
    cases hreq : envelope.payload.request with
    | none =>
      left
      show SameMap w.client (envelopeLocked w.client envelope).1
      rw [envelopeLocked_of_none hreq]
      exact sameMap_beforeRequest w.client envelope
    | some r => exact .inr ⟨envelope, r, rfl, hreq, took_envelopeLocked hreq⟩

theorem answerSnapshot_cases (w : SyncWorld) (reply : SnapshotReply) :
    w.step (.answerSnapshot reply) = w ∨
      ∃ revision, w.fetch = some ⟨revision, none⟩ ∧ Lists w.server reply.requests ∧
        w.step (.answerSnapshot reply) = { w with fetch := some ⟨revision, some reply⟩ } := by
  unfold SyncWorld.step
  dsimp only
  split
  · rename_i revision hfetch
    split
    · exact .inr ⟨revision, hfetch, ‹_›, rfl⟩
    · exact .inl rfl
  · exact .inl rfl

theorem applySnapshot_cases (w : SyncWorld) (now : String) :
    w.step (.applySnapshot now) = w ∨
      ∃ revision reply, w.fetch = some ⟨revision, some reply⟩ ∧
        w.step (.applySnapshot now) =
          { w with fetch := none, client := (refreshLocked w.client reply revision now).1 } := by
  unfold SyncWorld.step
  dsimp only
  split
  · exact .inr ⟨_, _, ‹_›, rfl⟩
  · exact .inl rfl

theorem based_receive {w : SyncWorld} (h : Based w) : Based (w.step .receive) := by
  obtain hsame | ⟨hserver, hfetch, hcached, hmap | ⟨-, r, -, -, htook⟩⟩ := receive_cases w
  · rw [hsame]
    exact h
  · exact based_same h (hcached h.cached) hserver hfetch hmap
  · exact based_took h (hcached h.cached) hserver hfetch htook

theorem based_applySnapshot {w : SyncWorld} (h : Based w) (now : String) :
    Based (w.step (.applySnapshot now)) := by
  obtain hsame | ⟨revision, reply, hfetch, hstep⟩ := applySnapshot_cases w now
  · rw [hsame]
    exact h
  · obtain ⟨-, hrevs, hrev⟩ := refreshLocked_map w.client reply revision now
    rw [hstep]
    refine ⟨cached_refreshLocked h.cached reply revision now, fun id n hn => ?_, h.keyed,
      fun f hf => by cases hf⟩
    rw [hrevs, ExtTreeMap.getElem?_filter'] at hn
    rw [hrev]
    exact h.bounded id n (Option.filter_eq_some_iff.mp hn).1

theorem based_step {w : SyncWorld} (h : Based w) (a : SyncAction) : Based (w.step a) := by
  cases a with
  | mutate changed listed eligible broadcasts =>
    unfold SyncWorld.step
    dsimp only
    split
    · exact ⟨h.cached, h.bounded, keyed_commitVersions h.keyed changed, h.revision⟩
    · exact h
  | deliver i =>
    unfold SyncWorld.step
    dsimp only
    split
    · exact h
    · exact ⟨h.cached, h.bounded, h.keyed, h.revision⟩
  | resync skipped => exact ⟨h.cached, h.bounded, h.keyed, h.revision⟩
  | receive => exact based_receive h
  | disconnect => exact ⟨h.cached, h.bounded, h.keyed, h.revision⟩
  | clearRefused =>
    refine ⟨cached_revokedLocked w.client, fun id n hn => ?_, h.keyed, h.revision⟩
    rw [show (w.step .clearRefused).client.requestRevisions = ∅ from rfl,
      ExtTreeMap.getElem?_empty] at hn
    cases hn
  | startSnapshot =>
    unfold SyncWorld.step
    dsimp only
    split
    · exact ⟨h.cached, h.bounded, h.keyed, fun f hf => by rw [← Option.some.inj hf]⟩
    · exact h
  | answerSnapshot reply =>
    obtain hsame | ⟨revision, hfetch, -, hstep⟩ := answerSnapshot_cases w reply
    · rw [hsame]
      exact h
    · rw [hstep]
      refine ⟨h.cached, h.bounded, h.keyed, fun f hf => ?_⟩
      rw [← Option.some.inj hf]
      exact h.revision ⟨revision, none⟩ hfetch
  | applySnapshot now => exact based_applySnapshot h now
  | dropSnapshot => exact ⟨h.cached, h.bounded, h.keyed, fun f hf => by cases hf⟩

theorem based_run {w : SyncWorld} (h : Based w) (actions : List SyncAction) :
    Based (w.run actions) := by
  induction actions generalizing w with
  | nil => exact h
  | cons a rest ih => exact ih (based_step h a)

/-! ### What a step keeps once the fetch has started -/

theorem fetching_of_none {w : SyncWorld} (h : Based w) (hnone : w.fetch = none) : Fetching w := by
  refine ⟨h, fun revision reply hf => ?_, fun f hf => ?_⟩
  · rw [hnone] at hf
    cases hf
  · rw [hnone] at hf
    cases hf

/-- Nothing has changed yet during a fetch that starts. -/
theorem fetching_startSnapshot {w : SyncWorld} (h : Based w) (hnone : w.fetch = none) :
    Fetching (w.step .startSnapshot) := by
  have hstart : w.step .startSnapshot = { w with fetch := some ⟨w.client.revision, none⟩ } := by
    unfold SyncWorld.step
    rw [hnone]
  refine ⟨based_step h .startSnapshot, fun revision reply hf => ?_, fun f hf id held _ hchanged => ?_⟩
  · rw [hstart] at hf
    cases hf
  · rw [hstart] at hf hchanged
    rw [← Option.some.inj hf, h.bounded.unchanged id] at hchanged
    cases hchanged

theorem fetching_same {w w' : SyncWorld} (h : Fetching w) (hbased : Based w')
    (hserver : w'.server = w.server) (hfetch : w'.fetch = w.fetch)
    (hmap : SameMap w.client w'.client) : Fetching w' := by
  refine ⟨hbased, fun revision reply hf => ?_, fun f hf id held hheld hchanged => ?_⟩
  · rw [hfetch] at hf
    rw [hserver]
    exact h.reply revision reply hf
  · rw [hfetch] at hf
    rw [hmap.1] at hheld
    rw [changedDuringFetch_congr hmap] at hchanged
    rw [hserver]
    exact h.changed f hf id held hheld hchanged

theorem fetching_took {w w' : SyncWorld} {r : Request} (h : Fetching w) (hbased : Based w')
    (hserver : w'.server = w.server) (hfetch : w'.fetch = w.fetch)
    (htook : Took w.client w'.client r)
    (hagrees : staleFor w.client r = true ∨ Agrees w.server r) : Fetching w' := by
  refine ⟨hbased, fun revision reply hf => ?_, fun f hf id held hheld hchanged => ?_⟩
  · rw [hfetch] at hf
    rw [hserver]
    exact h.reply revision reply hf
  · rw [hfetch] at hf
    rw [hserver]
    by_cases hid : r.id = id
    · cases hstale : staleFor w.client r with
      | true =>
        unfold Took at htook
        rw [if_pos hstale] at htook
        rw [htook.1] at hheld
        rw [changedDuringFetch_congr htook] at hchanged
        exact h.changed f hf id held hheld hchanged
      | false =>
        have hget := htook.get?_self hstale
        rw [hid, hheld] at hget
        rw [Option.some.inj hget]
        obtain hstale' | hag := hagrees
        · rw [hstale] at hstale'
          cases hstale'
        · exact hag
    · rw [get?_took_of_ne htook hid] at hheld
      rw [changedDuringFetch_took_of_ne htook hid] at hchanged
      exact h.changed f hf id held hheld hchanged

theorem fetching_step {w : SyncWorld} (h : Fetching w) {a : SyncAction} (hstill : NoMutation a)
    (hpunctual : Punctual w a) : Fetching (w.step a) := by
  have hbased := based_step h.toBased a
  cases a with
  | mutate changed listed eligible broadcasts => exact absurd hstill id
  | clearRefused => exact absurd hpunctual id
  | deliver i =>
    unfold SyncWorld.step
    dsimp only
    split
    · exact h
    · exact fetching_same h ⟨h.cached, h.bounded, h.keyed, h.revision⟩ rfl rfl (SameMap.refl _)
  | resync skipped => exact fetching_same h hbased rfl rfl (SameMap.refl _)
  | disconnect => exact fetching_same h hbased rfl rfl (SameMap.refl _)
  | receive =>
    obtain hsame | ⟨hserver, hfetch, -, hmap | ⟨envelope, r, hhead, hreq, htook⟩⟩ := receive_cases w
    · rw [hsame]
      exact h
    · exact fetching_same h hbased hserver hfetch hmap
    · exact fetching_took h hbased hserver hfetch htook (hpunctual envelope r hhead hreq)
  | startSnapshot =>
    cases hfetch : w.fetch with
    | none => exact fetching_startSnapshot h.toBased hfetch
    | some f =>
      have hsame : w.step .startSnapshot = w := by
        unfold SyncWorld.step
        rw [hfetch]
      rw [hsame]
      exact h
  | answerSnapshot reply =>
    obtain hsame | ⟨revision, hfetch, hlists, hstep⟩ := answerSnapshot_cases w reply
    · rw [hsame]
      exact h
    · rw [hstep] at hbased ⊢
      refine ⟨hbased, fun revision' reply' hf => ?_, fun f hf => ?_⟩
      · obtain ⟨-, hreply⟩ := SnapshotFetch.mk.inj (Option.some.inj hf)
        rw [← Option.some.inj hreply]
        exact hlists
      · rw [← Option.some.inj hf]
        exact h.changed ⟨revision, none⟩ hfetch
  | applySnapshot now =>
    obtain hsame | ⟨revision, reply, hfetch, hstep⟩ := applySnapshot_cases w now
    · rw [hsame]
      exact h
    · rw [hstep] at hbased ⊢
      exact fetching_of_none hbased rfl
  | dropSnapshot => exact fetching_of_none hbased rfl

theorem fetching_run {w : SyncWorld} (h : Fetching w) {actions : List SyncAction}
    (hstill : ∀ a ∈ actions, NoMutation a) (hpunctual : PunctualRun w actions) :
    Fetching (w.run actions) := by
  induction actions generalizing w with
  | nil => exact h
  | cons a rest ih =>
    exact ih (fetching_step h (hstill a List.mem_cons_self) hpunctual.1)
      (fun b hb => hstill b (List.mem_cons_of_mem _ hb)) hpunctual.2

/-! ### The applied snapshot -/

theorem converged_applySnapshot {w : SyncWorld} (h : Fetching w) {revision : Nat}
    {reply : SnapshotReply} (hfetch : w.fetch = some ⟨revision, some reply⟩) (now : String) :
    Converged (w.step (.applySnapshot now)) := by
  have hstep : w.step (.applySnapshot now) =
      { w with fetch := none, client := (refreshLocked w.client reply revision now).1 } := by
    unfold SyncWorld.step
    rw [hfetch]
  intro id
  rw [hstep]
  dsimp only
  rw [(refreshLocked_map w.client reply revision now).1]
  exact getElem?_mergeSnapshot_fresh h.keyed h.cached.keyed (h.reply revision reply hfetch)
    (h.changed _ hfetch) id

theorem converged_step {w : SyncWorld} (h : Fetching w) (hconverged : Converged w) {a : SyncAction}
    (hstill : NoMutation a) (hpunctual : Punctual w a) : Converged (w.step a) := by
  cases a with
  | mutate changed listed eligible broadcasts => exact absurd hstill id
  | clearRefused => exact absurd hpunctual id
  | receive =>
    obtain hsame | ⟨hserver, -, -, hmap | ⟨envelope, r, hhead, hreq, htook⟩⟩ := receive_cases w
    · rw [hsame]
      exact hconverged
    · intro id
      rw [hmap.1, hserver]
      exact hconverged id
    · exact converged_took hconverged hserver htook (hpunctual envelope r hhead hreq)
  | applySnapshot now =>
    obtain hsame | ⟨revision, reply, hfetch, -⟩ := applySnapshot_cases w now
    · rw [hsame]
      exact hconverged
    · exact converged_applySnapshot h hfetch now
  | resync | disconnect | dropSnapshot => exact hconverged
  | deliver i => unfold SyncWorld.step; dsimp only; split <;> exact hconverged
  | startSnapshot => unfold SyncWorld.step; dsimp only; split <;> exact hconverged
  | answerSnapshot reply =>
    obtain hsame | ⟨revision, -, -, hstep⟩ := answerSnapshot_cases w reply
    · rw [hsame]
      exact hconverged
    · rw [hstep]
      exact hconverged

theorem converged_run {w : SyncWorld} (h : Fetching w) (hconverged : Converged w)
    {actions : List SyncAction} (hstill : ∀ a ∈ actions, NoMutation a)
    (hpunctual : PunctualRun w actions) : Converged (w.run actions) := by
  induction actions generalizing w with
  | nil => exact hconverged
  | cons a rest ih =>
    have ha := hstill a List.mem_cons_self
    exact ih (fetching_step h ha hpunctual.1) (converged_step h hconverged ha hpunctual.1)
      (fun b hb => hstill b (List.mem_cons_of_mem _ hb)) hpunctual.2

theorem punctualRun_append {w : SyncWorld} {front back : List SyncAction} :
    PunctualRun w (front ++ back) ↔ PunctualRun w front ∧ PunctualRun (w.run front) back := by
  induction front generalizing w with
  | nil => exact ⟨fun h => ⟨trivial, h⟩, And.right⟩
  | cons a front ih =>
    show (_ ∧ PunctualRun (w.step a) (front ++ back)) ↔ _
    rw [ih, ← and_assoc]
    rfl

theorem SyncWorld.run_append (w : SyncWorld) (front back : List SyncAction) :
    w.run (front ++ back) = (w.run front).run back := List.foldl_append

/-- A fetch starts after the last mutation and its snapshot, or that of a later one, is applied;
    once every broadcast is sent and every message processed, the client holds what the server
    lists. The condition is on the steps that follow the start of the fetch. -/
def LiveSyncConverges (start : SyncWorld) : Prop :=
  ∀ before during now after,
    let fetching := start.run (before ++ [.startSnapshot])
    let last := fetching.run (during ++ .applySnapshot now :: after)
    (start.run before).fetch = none → ((fetching.run during).fetch.bind (·.reply)).isSome →
      (∀ a ∈ during ++ after, NoMutation a) →
      PunctualRun fetching (during ++ .applySnapshot now :: after) →
      last.outbox = [] → last.socket = [] → Converged last

theorem live_sync_converges (servers : List ServerProfile) (selectedServerId : Option String)
    (notificationSound : String) :
    LiveSyncConverges (SyncWorld.start servers selectedServerId notificationSound) := by
  intro before during now after fetching last hnone hanswered hstill hpunctual _ _
  have hbased := based_run (based_start servers selectedServerId notificationSound) before
  have hstart : Fetching fetching := by
    have hrun : fetching = (SyncWorld.run _ before).step .startSnapshot :=
      SyncWorld.run_append _ before [.startSnapshot]
    rw [hrun]
    exact fetching_startSnapshot hbased hnone
  obtain ⟨hduring, -, hafter⟩ := punctualRun_append.mp hpunctual
  have hstillDuring : ∀ a ∈ during, NoMutation a := fun a ha => hstill a (List.mem_append_left _ ha)
  have hstillAfter : ∀ a ∈ after, NoMutation a := fun a ha => hstill a (List.mem_append_right _ ha)
  have hfetching := fetching_run hstart hstillDuring hduring
  have happlied : Converged ((fetching.run during).step (.applySnapshot now)) := by
    obtain ⟨reply, hreply⟩ := Option.isSome_iff_exists.mp hanswered
    obtain ⟨⟨revision, answered⟩, hfetch, rfl⟩ := Option.bind_eq_some_iff.mp hreply
    exact converged_applySnapshot hfetching hfetch now
  have hrun : last = ((fetching.run during).step (.applySnapshot now)).run after :=
    SyncWorld.run_append fetching during _
  rw [hrun]
  have happly : Fetching ((fetching.run during).step (.applySnapshot now)) :=
    @fetching_step _ hfetching (.applySnapshot now) trivial trivial
  exact converged_run happly happlied hstillAfter hafter

/-! ## A late event survives

  A request is created, resolved, and its channel cleared. The broadcast of the clearing leaves
  before that of the resolution, the refresh it causes lists nothing, and then the late event is
  applied. -/

section LateEvent

def resolvedEvent (r : Request) : SyncEnvelope where
  kind := "resolved"
  notificationDelivery := none
  payload := ⟨some r, none, none, ∅⟩

def clearedEvent : SyncEnvelope where
  kind := "cleared"
  notificationDelivery := none
  payload := ⟨none, none, none,
    .ofList [("device_id", Json.str "device-1"), ("channel_id", Json.str "deploys")]⟩

def emptySync : SyncWorld := SyncWorld.start [] none "default"

def untilNotified : List SyncAction :=
  [.mutate [pendingCard] ["req-1"] ["req-1"] [createdEvent pendingCard], .deliver 0, .receive,
    .mutate [handledCard] ["req-1"] ["req-1"] [resolvedEvent handledCard],
    .mutate [] [] ["req-1"] [clearedEvent], .deliver 1, .receive]

def lateEvent : List SyncAction := [.deliver 0, .receive]

def clientCreated : StateReducer := (envelopeLocked emptySync.client (createdEvent pendingCard)).1

def clientNotified : StateReducer := (envelopeLocked clientCreated clearedEvent).1

def clientResynced : StateReducer :=
  (refreshLocked clientNotified (sampleReply []) clientNotified.revision "12:00:03").1

/-- The client starts the fetch once it has been told of the clearing. -/
def worldFetching : SyncWorld where
  server := ⟨commitVersions (commitVersions (commitVersions ∅ [pendingCard]) [handledCard]) [],
    [], ["req-1"]⟩
  outbox := [resolvedEvent handledCard]
  socket := []
  fetch := some ⟨clientNotified.revision, none⟩
  client := clientNotified

theorem run_untilNotified : emptySync.run untilNotified = { worldFetching with fetch := none } := rfl

theorem run_untilFetching : emptySync.run (untilNotified ++ [.startSnapshot]) = worldFetching := by
  rw [SyncWorld.run_append, run_untilNotified]
  rfl

theorem run_late :
    worldFetching.run ([.answerSnapshot (sampleReply [])] ++ .applySnapshot "12:00:03" :: lateEvent) =
      { worldFetching with
        outbox := []
        fetch := none
        client := (envelopeLocked clientResynced (resolvedEvent handledCard)).1 } := rfl

theorem revisionsBounded_clientNotified : RevisionsBounded clientNotified := by
  have hstart : RevisionsBounded emptySync.client := (based_start [] none "default").bounded
  have hcreated : RevisionsBounded clientCreated :=
    revisionsBounded_took hstart (took_envelopeLocked (r := pendingCard) rfl)
  have hsame : SameMap clientCreated clientNotified := sameMap_beforeRequest clientCreated _
  exact revisionsBounded_same hcreated hsame

theorem clientResynced_empty (id : String) : clientResynced.requestsById[id]? = none := by
  have hlisted : (listedById (sampleReply []).requests)[id]? = none := by
    unfold listedById sampleReply
    simp
  unfold clientResynced
  rw [(refreshLocked_map _ _ _ _).1, getElem?_mergeSnapshot, hlisted]
  cases clientNotified.requestsById[id]? with
  | none => rfl
  | some held => simp [keptInSnapshot, revisionsBounded_clientNotified.unchanged]

/-- No mutation follows the start of the fetch, its snapshot is applied and every message is
    processed, and the client holds a request that the server does not list. -/
theorem late_event_survives :
    let fetching := emptySync.run (untilNotified ++ [.startSnapshot])
    let during := [SyncAction.answerSnapshot (sampleReply [])]
    let last := fetching.run (during ++ .applySnapshot "12:00:03" :: lateEvent)
    (emptySync.run untilNotified).fetch = none ∧
      ((fetching.run during).fetch.bind (·.reply)).isSome ∧ (∀ a ∈ during ++ lateEvent, NoMutation a) ∧
      last.outbox = [] ∧ last.socket = [] ∧
      last.client.requestsById["req-1"]? = some handledCard ∧ last.server.listing "req-1" = none := by
  intro fetching during last
  have hfetching : fetching = worldFetching := run_untilFetching
  have hfresh : staleFor clientResynced handledCard = false := by
    unfold staleFor
    rw [clientResynced_empty]
    rfl
  have hheld : (envelopeLocked clientResynced (resolvedEvent handledCard)).1.requestsById["req-1"]?
      = some handledCard := (took_envelopeLocked rfl).get?_self hfresh
  have hlast : last = _ := (congrArg (SyncWorld.run · _) hfetching).trans run_late
  rw [hlast, hfetching, run_untilNotified]
  refine ⟨rfl, rfl, ?_, rfl, rfl, hheld, rfl⟩
  intro a ha
  simp only [during, lateEvent, List.cons_append, List.nil_append, List.mem_cons,
    List.not_mem_nil, or_false] at ha
  obtain rfl | rfl | rfl := ha <;> trivial

end LateEvent

end Nod.Client
