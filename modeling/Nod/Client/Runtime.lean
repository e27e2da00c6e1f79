import Nod.Client.Coherent

/-
  The parts of the client runtime that run under the reducer lock (`runtime/snapshot.rs`,
  `runtime/sync.rs`, `runtime/workflows.rs`), each with the messages it leaves to be emitted
  after the lock is released, and what each of them does to the map of held requests.
-/

namespace Nod.Client

open Std Lib Nod.Proto StateReducer

/-! ## Critical sections -/

/-- What the four reads of a refresh return. -/
structure SnapshotReply where
  user : User
  currentDevice : UserDevice
  notificationDelivery : NotificationDelivery
  devices : List UserDevice
  channels : List Channel
  requests : List Request

/-- `refresh` once its reads are done: candidates, then the requests no longer pending. -/
def refreshLocked (s : StateReducer) (reply : SnapshotReply) (revision : Nat) (now : String) :
    StateReducer × List Request × List String :=
  let devices := reply.currentDevice :: reply.devices.filter (·.id != reply.currentDevice.id)
  let oldPending := s.pendingRequestIds
  let s := s.setNotificationDeliveryMode reply.notificationDelivery.mode
  let s :=
    { s with state := { s.state with notificationSound := reply.currentDevice.notificationSound } }
  let (s, candidates) :=
    s.applySnapshot (some reply.user) devices reply.channels reply.requests revision now
  let pending := s.pendingRequestIds
  (s, candidates, oldPending.filter fun id => !pending.contains id)

def notificationDeliveryModeFor (envelope : SyncEnvelope) : Option NotificationDeliveryMode :=
  (envelope.notificationDelivery.or envelope.payload.notificationDelivery).map (·.mode)

def notificationRemovalFor (envelope : SyncEnvelope) : Option String :=
  (envelope.payload.request.filter fun r => !isPending r).map (·.id)

def applyDeliveryMode (s : StateReducer) : Option NotificationDeliveryMode → StateReducer
  | some mode => s.setNotificationDeliveryMode mode
  | none => s

/-- `apply_sync_envelope` of the sync task. -/
def envelopeLocked (s : StateReducer) (envelope : SyncEnvelope) : StateReducer × List Request :=
  (applyDeliveryMode s (notificationDeliveryModeFor envelope)).applySyncEnvelope envelope

/-- Whether an envelope says that this device is revoked. -/
def isCurrentDeviceRevoked (s : StateReducer) (envelope : SyncEnvelope) : Bool :=
  envelope.kind == "device_revoked" &&
    match (envelope.payload.extra["device_id"]?).bind Json.asStr? with
    | some deviceId => s.selectedServer.bind (·.deviceId) == some deviceId
    | none => false

/-- `run_sync_loop` once the registration is refused: the state, and the requests that were
    pending. -/
def revokedLocked (s : StateReducer) : StateReducer × List String :=
  (s.clearLoadedData.setError "This device registration was revoked. Enroll again to reconnect.",
    s.pendingRequestIds)

/-- `open_request` once the request is fetched. -/
def openLocked (s : StateReducer) (request : Request) : StateReducer :=
  let s := (s.applyRequestUpdate request).1
  let s := s.selectChannel (some request.channelId)
  { s with state := { s.state with selectedRequestId := some request.id } }

/-- `apply_targeted_request`, the end of every submission. -/
def targetedLocked (s : StateReducer) (serverId : String) (request : Request) : StateReducer :=
  if s.state.selectedServerId = some serverId then (s.applyRequestUpdate request).1 else s

/-! ## One version applied -/

/-- The parts of the state that decide which version of a request is held. -/
def SameMap (s s' : StateReducer) : Prop :=
  s'.requestsById = s.requestsById ∧ s'.requestRevisions = s.requestRevisions ∧
    s'.revision = s.revision

/-- What taking one version does to the map: nothing when the held version makes it stale. -/
def Took (s s' : StateReducer) (r : Request) : Prop :=
  if staleFor s r then SameMap s s'
  else
    s'.requestsById = s.requestsById.insert r.id r ∧
      s'.requestRevisions = s.requestRevisions.insert r.id (s.revision + 1) ∧
      s'.revision = s.revision + 1

theorem SameMap.refl (s : StateReducer) : SameMap s s := ⟨rfl, rfl, rfl⟩

theorem SameMap.trans {s s' s'' : StateReducer} (h : SameMap s s') (h' : SameMap s' s'') :
    SameMap s s'' :=
  ⟨h'.1.trans h.1, h'.2.1.trans h.2.1, h'.2.2.trans h.2.2⟩

theorem Took.of_same {s s' t t' : StateReducer} {r : Request} (h : Took s t r)
    (hs : SameMap s s') (ht : SameMap t t') : Took s' t' r := by
  obtain ⟨hmap, hrevs, hrev⟩ := hs
  unfold Took staleFor at *
  rw [hmap, hrevs, hrev]
  split at h
  · rw [if_pos ‹_›]
    exact ⟨ht.1.trans (h.1.trans hmap.symm), ht.2.1.trans (h.2.1.trans hrevs.symm),
      ht.2.2.trans (h.2.2.trans hrev.symm)⟩
  · rw [if_neg ‹_›]
    exact ⟨ht.1.trans h.1, ht.2.1.trans h.2.1, ht.2.2.trans h.2.2⟩

theorem sameMap_updateVisibleRequests (s : StateReducer) : SameMap s s.updateVisibleRequests := by
  unfold updateVisibleRequests
  obtain ⟨selected, heq, -⟩ := ensureSelectedRequest_spec
    { s with
      state :=
        { s.state with
          requests := s.visibleRequestsForSelectedChannel (OrdMap.values s.requestsById) } }
  rw [heq]
  exact SameMap.refl s

theorem took_applyRequestUpdate (s : StateReducer) (r : Request) :
    Took s (s.applyRequestUpdate r).1 r := by
  unfold Took
  cases hstale : staleFor s r with
  | true =>
    rw [if_pos rfl, applyRequestUpdate_of_stale hstale]
    exact SameMap.refl s
  | false =>
    obtain ⟨counts, known, hframe⟩ := updatePendingTracking_frame s r
    rw [if_neg Bool.false_ne_true]
    unfold staleFor at hstale
    unfold applyRequestUpdate
    rw [hstale, if_neg Bool.false_ne_true]
    simp only [hframe]
    exact sameMap_updateVisibleRequests _

theorem cached_applyRequestUpdate {s : StateReducer} (h : Cached s) (r : Request) :
    Cached (s.applyRequestUpdate r).1 := by
  cases hstale : staleFor s r with
  | true =>
    rw [applyRequestUpdate_of_stale hstale]
    exact h
  | false => exact (coherent_applyRequestUpdate_of_fresh h hstale).toCached

/-- A version is reported as newly pending exactly when it is taken, is pending, and the version
    it replaces is not. -/
theorem newPending_iff {s : StateReducer} (h : Cached s) (r : Request) :
    (s.applyRequestUpdate r).2 = true ↔
      staleFor s r = false ∧ isPending r = true ∧ pendingChannel s.requestsById r.id = none := by
  cases hstale : staleFor s r with
  | true =>
    rw [applyRequestUpdate_of_stale hstale]
    simp
  | false =>
    unfold staleFor at hstale
    unfold applyRequestUpdate
    rw [hstale, if_neg Bool.false_ne_true]
    unfold updatePendingTracking
    rw [previousPendingChannel_eq h r]
    cases pendingChannel s.requestsById r.id with
    | none => cases isPending r <;> simp
    | some previous => cases isPending r <;> simp

theorem Took.get?_self {s s' : StateReducer} {r : Request} (h : Took s s' r)
    (hfresh : staleFor s r = false) : s'.requestsById[r.id]? = some r := by
  unfold Took at h
  rw [hfresh, if_neg Bool.false_ne_true] at h
  rw [h.1]
  exact ExtTreeMap.getElem?_insert_self

/-! ## The critical sections on the map -/

theorem sameMap_applyChannel (s : StateReducer) (channel : Option Channel) :
    SameMap s (s.applyChannel channel) := by
  cases channel with
  | none => exact SameMap.refl s
  | some channel => exact ⟨rfl, rfl, rfl⟩

theorem sameMap_applyDeliveryMode (s : StateReducer) (mode : Option NotificationDeliveryMode) :
    SameMap s (applyDeliveryMode s mode) := by
  cases mode with
  | none => exact SameMap.refl s
  | some mode => exact ⟨rfl, rfl, rfl⟩

theorem cached_of_same {s s' : StateReducer} (h : Cached s) (hmap : SameMap s s')
    (hcounts : s'.state.pendingCountsByChannel = s.state.pendingCountsByChannel)
    (hknown : s'.knownPendingRequestChannels = s.knownPendingRequestChannels)
    (hreq : s'.state.requests = s.state.requests)
    (hsel : s'.state.selectedChannelId = s.state.selectedChannelId) : Cached s' := by
  refine ⟨hmap.1 ▸ h.keyed, ⟨?_, ?_⟩, ?_⟩
  · rw [hcounts, hmap.1]
    exact h.tracks.counts
  · rw [hknown, hmap.1]
    exact h.tracks.known
  · rw [hreq, hmap.1, hsel]
    exact h.visible

/-- The state that takes the request of an envelope. -/
def beforeRequest (s : StateReducer) (envelope : SyncEnvelope) : StateReducer :=
  let s := applyDeliveryMode s (notificationDeliveryModeFor envelope)
  { s with state := { s.state with isSyncConnected := true } }.applyChannel envelope.payload.channel

theorem sameMap_beforeRequest (s : StateReducer) (envelope : SyncEnvelope) :
    SameMap s (beforeRequest s envelope) :=
  (sameMap_applyDeliveryMode s _).trans (sameMap_applyChannel _ _)

theorem cached_beforeRequest {s : StateReducer} (h : Cached s) (envelope : SyncEnvelope) :
    Cached (beforeRequest s envelope) := by
  have hmode : Cached (applyDeliveryMode s (notificationDeliveryModeFor envelope)) := by
    cases notificationDeliveryModeFor envelope with
    | none => exact h
    | some mode => exact cached_of_same h ⟨rfl, rfl, rfl⟩ rfl rfl rfl rfl
  unfold beforeRequest
  cases envelope.payload.channel with
  | none => exact cached_of_same hmode ⟨rfl, rfl, rfl⟩ rfl rfl rfl rfl
  | some channel => exact cached_of_same hmode ⟨rfl, rfl, rfl⟩ rfl rfl rfl rfl

theorem envelopeLocked_of_none {s : StateReducer} {envelope : SyncEnvelope}
    (h : envelope.payload.request = none) :
    envelopeLocked s envelope = (beforeRequest s envelope, []) := by
  unfold envelopeLocked applySyncEnvelope
  rw [h]
  rfl

theorem envelopeLocked_of_some {s : StateReducer} {envelope : SyncEnvelope} {r : Request}
    (h : envelope.payload.request = some r) :
    envelopeLocked s envelope =
      (((beforeRequest s envelope).applyRequestUpdate r).1,
        if envelope.kind = syncKindCreated ∧ ((beforeRequest s envelope).applyRequestUpdate r).2
        then [r] else []) := by
  unfold envelopeLocked applySyncEnvelope
  rw [h]
  rfl

theorem took_envelopeLocked {s : StateReducer} {envelope : SyncEnvelope} {r : Request}
    (h : envelope.payload.request = some r) : Took s (envelopeLocked s envelope).1 r := by
  rw [envelopeLocked_of_some h]
  obtain ⟨hmap, hrevs, hrev⟩ := sameMap_beforeRequest s envelope
  exact (took_applyRequestUpdate _ r).of_same ⟨hmap.symm, hrevs.symm, hrev.symm⟩
    (SameMap.refl _)

theorem cached_envelopeLocked {s : StateReducer} (h : Cached s) (envelope : SyncEnvelope) :
    Cached (envelopeLocked s envelope).1 := by
  cases hreq : envelope.payload.request with
  | none =>
    rw [envelopeLocked_of_none hreq]
    exact cached_beforeRequest h envelope
  | some r =>
    rw [envelopeLocked_of_some hreq]
    exact cached_applyRequestUpdate (cached_beforeRequest h envelope) r

/-- A live event has a candidate only for a request that it just made pending. -/
theorem mem_candidates_envelopeLocked {s : StateReducer} (h : Cached s) {envelope : SyncEnvelope}
    {c : Request} (hc : c ∈ (envelopeLocked s envelope).2) :
    envelope.payload.request = some c ∧ staleFor s c = false ∧ isPending c = true ∧
      pendingChannel s.requestsById c.id = none := by
  cases hreq : envelope.payload.request with
  | none =>
    rw [envelopeLocked_of_none hreq] at hc
    exact absurd hc List.not_mem_nil
  | some r =>
    rw [envelopeLocked_of_some hreq] at hc
    dsimp only at hc
    split at hc
    · have hnew := (newPending_iff (cached_beforeRequest h envelope) r).mp (‹_ ∧ _›).2
      unfold staleFor at hnew
      rw [(sameMap_beforeRequest s envelope).1] at hnew
      rw [List.mem_singleton.mp hc]
      exact ⟨rfl, hnew⟩
    · exact absurd hc List.not_mem_nil

theorem sameMap_selectChannel (s : StateReducer) (channelId : Option String) :
    SameMap s (s.selectChannel channelId) := by
  have hset : SameMap s { s with state := { s.state with selectedChannelId := channelId } } :=
    ⟨rfl, rfl, rfl⟩
  exact hset.trans (sameMap_updateVisibleRequests _)

theorem took_openLocked (s : StateReducer) (r : Request) : Took s (openLocked s r) r := by
  refine (took_applyRequestUpdate s r).of_same (SameMap.refl s) ?_
  have hselect := sameMap_selectChannel (s.applyRequestUpdate r).1 (some r.channelId)
  exact hselect.trans ⟨rfl, rfl, rfl⟩

theorem cached_openLocked {s : StateReducer} (h : Cached s) (r : Request) :
    Cached (openLocked s r) := by
  have hsel := (coherent_selectChannel (cached_applyRequestUpdate h r)
    (some r.channelId)).toCached
  exact cached_of_same hsel ⟨rfl, rfl, rfl⟩ rfl rfl rfl rfl

theorem cached_targetedLocked {s : StateReducer} (h : Cached s) (serverId : String)
    (r : Request) : Cached (targetedLocked s serverId r) := by
  unfold targetedLocked
  split
  · exact cached_applyRequestUpdate h r
  · exact h

/-! ## A snapshot on the map -/

theorem sameMap_ensureSelectedChannel (s : StateReducer) : SameMap s s.ensureSelectedChannel := by
  obtain ⟨selected, heq⟩ := ensureSelectedChannel_spec s
  rw [heq]
  exact ⟨rfl, rfl, rfl⟩

theorem mergeSnapshot_congr {s s' : StateReducer} (h : SameMap s s') (requests : List Request)
    (startedAtRevision : Nat) :
    s'.mergeSnapshot requests startedAtRevision = s.mergeSnapshot requests startedAtRevision := by
  unfold mergeSnapshot keptInSnapshot changedDuringFetch
  rw [h.1, h.2.1]

theorem replaceRequests_map (s : StateReducer) (snapshot : ExtTreeMap String Request) :
    (s.replaceRequests snapshot).1.requestsById = snapshot ∧
      (s.replaceRequests snapshot).1.requestRevisions =
        s.requestRevisions.filter (fun id _ => snapshot.contains id) ∧
      (s.replaceRequests snapshot).1.revision = s.revision := by
  unfold replaceRequests
  dsimp only
  obtain ⟨selected, heq, -⟩ := ensureSelectedRequest_spec
    (updateVisibleRequests (rememberPendingRequests
      { s with
        requestsById := snapshot
        requestRevisions := s.requestRevisions.filter fun id _ => snapshot.contains id
        state :=
          { s.state with
            pendingCountsByChannel :=
              countPendingByChannel (pendingRequests (OrdMap.values snapshot)) } }
      (pendingRequests (OrdMap.values snapshot))))
  rw [heq]
  exact sameMap_updateVisibleRequests _

theorem replaceRequests_candidates (s : StateReducer) (snapshot : ExtTreeMap String Request) :
    (s.replaceRequests snapshot).2 =
      if !s.hasLoadedPendingSnapshot then []
      else (pendingRequests (OrdMap.values snapshot)).filter
        fun r => !s.knownPendingRequestChannels.contains r.id := rfl

/-- The state that a refresh merges its listing into. -/
def beforeListing (s : StateReducer) (reply : SnapshotReply) : StateReducer :=
  let s := s.setNotificationDeliveryMode reply.notificationDelivery.mode
  ensureSelectedChannel
    { s with
      state :=
        { s.state with
          notificationSound := reply.currentDevice.notificationSound
          currentUser := some reply.user
          devices :=
            reply.currentDevice :: reply.devices.filter (·.id != reply.currentDevice.id)
          channels := reply.channels } }

theorem sameMap_beforeListing (s : StateReducer) (reply : SnapshotReply) :
    SameMap s (beforeListing s reply) := by
  refine SameMap.trans ?_ (sameMap_ensureSelectedChannel _)
  exact ⟨rfl, rfl, rfl⟩

theorem beforeListing_known (s : StateReducer) (reply : SnapshotReply) :
    (beforeListing s reply).knownPendingRequestChannels = s.knownPendingRequestChannels ∧
      (beforeListing s reply).hasLoadedPendingSnapshot = s.hasLoadedPendingSnapshot := by
  unfold beforeListing
  obtain ⟨selected, heq⟩ := ensureSelectedChannel_spec _
  dsimp only
  rw [heq]
  exact ⟨rfl, rfl⟩

theorem refreshLocked_fst (s : StateReducer) (reply : SnapshotReply) (revision : Nat)
    (now : String) :
    ∃ lastError lastSyncedAt,
      (refreshLocked s reply revision now).1 =
        { ((beforeListing s reply).replaceRequests
            (s.mergeSnapshot reply.requests revision)).1 with
          state :=
            { ((beforeListing s reply).replaceRequests
                (s.mergeSnapshot reply.requests revision)).1.state with
              lastError := lastError
              lastSyncedAt := lastSyncedAt } } := by
  rw [← mergeSnapshot_congr (sameMap_beforeListing s reply)]
  exact ⟨_, _, rfl⟩

theorem refreshLocked_map (s : StateReducer) (reply : SnapshotReply) (revision : Nat)
    (now : String) :
    (refreshLocked s reply revision now).1.requestsById = s.mergeSnapshot reply.requests revision ∧
      (refreshLocked s reply revision now).1.requestRevisions =
        s.requestRevisions.filter
          (fun id _ => (s.mergeSnapshot reply.requests revision).contains id) ∧
      (refreshLocked s reply revision now).1.revision = s.revision := by
  obtain ⟨lastError, lastSyncedAt, heq⟩ := refreshLocked_fst s reply revision now
  obtain ⟨hmap, hrevs, hrev⟩ := replaceRequests_map (beforeListing s reply)
    (s.mergeSnapshot reply.requests revision)
  rw [heq]
  rw [(sameMap_beforeListing s reply).2.1] at hrevs
  rw [(sameMap_beforeListing s reply).2.2] at hrev
  exact ⟨hmap, hrevs, hrev⟩

theorem cached_refreshLocked {s : StateReducer} (h : Cached s) (reply : SnapshotReply)
    (revision : Nat) (now : String) : Cached (refreshLocked s reply revision now).1 := by
  obtain ⟨lastError, lastSyncedAt, heq⟩ := refreshLocked_fst s reply revision now
  have hcore := coherent_replaceRequests (beforeListing s reply)
    (keyed_mergeSnapshot h.keyed reply.requests revision)
  rw [heq]
  exact cached_of_same hcore.toCached ⟨rfl, rfl, rfl⟩ rfl rfl rfl rfl

theorem candidates_refreshLocked (s : StateReducer) (reply : SnapshotReply) (revision : Nat)
    (now : String) :
    (refreshLocked s reply revision now).2.1 =
      if !s.hasLoadedPendingSnapshot then []
      else (pendingRequests (OrdMap.values (s.mergeSnapshot reply.requests revision))).filter
        fun r => !s.knownPendingRequestChannels.contains r.id := by
  have hcandidates : (refreshLocked s reply revision now).2.1 =
      ((beforeListing s reply).replaceRequests (s.mergeSnapshot reply.requests revision)).2 := by
    rw [← mergeSnapshot_congr (sameMap_beforeListing s reply)]
    rfl
  rw [hcandidates, replaceRequests_candidates, (beforeListing_known s reply).1,
    (beforeListing_known s reply).2]

theorem nodup_candidates_refreshLocked {s : StateReducer} (h : Cached s) (reply : SnapshotReply)
    (revision : Nat) (now : String) :
    ((refreshLocked s reply revision now).2.1.map Request.id).Nodup := by
  rw [candidates_refreshLocked]
  split
  · exact List.nodup_nil
  · exact (keyed_mergeSnapshot h.keyed reply.requests revision).nodup_ids.sublist
      ((List.filter_sublist.trans List.filter_sublist).map Request.id)

/-- A refresh has a candidate for each request it makes pending, except the first refresh. -/
theorem mem_candidates_refreshLocked {s : StateReducer} (h : Cached s) {reply : SnapshotReply}
    {revision : Nat} {now : String} {c : Request} :
    c ∈ (refreshLocked s reply revision now).2.1 ↔
      s.hasLoadedPendingSnapshot = true ∧
        (refreshLocked s reply revision now).1.requestsById[c.id]? = some c ∧
        isPending c = true ∧ pendingChannel s.requestsById c.id = none := by
  have hkeyed := keyed_mergeSnapshot h.keyed reply.requests revision
  have hvalue : c ∈ OrdMap.values (s.mergeSnapshot reply.requests revision) ↔
      (s.mergeSnapshot reply.requests revision)[c.id]? = some c := by
    rw [OrdMap.mem_values]
    constructor
    · rintro ⟨id, hid⟩
      rw [hkeyed id c hid]
      exact hid
    · intro hid
      exact ⟨c.id, hid⟩
  have hknown : s.knownPendingRequestChannels.contains c.id = false ↔
      pendingChannel s.requestsById c.id = none := by
    rw [ExtTreeMap.contains_eq_isSome_getElem?, h.tracks.known, Option.isSome_eq_false_iff,
      Option.isNone_iff_eq_none]
  rw [candidates_refreshLocked, (refreshLocked_map s reply revision now).1]
  cases s.hasLoadedPendingSnapshot with
  | false => simp
  | true =>
    unfold pendingRequests
    rw [Bool.not_true, if_neg Bool.false_ne_true, List.mem_filter, List.mem_filter, hvalue,
      Bool.not_eq_true', hknown]
    constructor
    · rintro ⟨⟨hget, hp⟩, hprev⟩
      exact ⟨rfl, hget, hp, hprev⟩
    · rintro ⟨-, hget, hp, hprev⟩
      exact ⟨⟨hget, hp⟩, hprev⟩

theorem mem_pendingRequestIds {s : StateReducer} (h : Cached s) {id : String} :
    id ∈ s.pendingRequestIds ↔ pendingChannel s.requestsById id ≠ none := by
  unfold pendingRequestIds
  rw [ExtTreeMap.mem_keys, ExtTreeMap.mem_iff_isSome_getElem?, h.tracks.known,
    Option.isSome_iff_ne_none]

/-- A refresh reports as removed what was pending before and is not any more. -/
theorem mem_removed_refreshLocked {s : StateReducer} (h : Cached s) {reply : SnapshotReply}
    {revision : Nat} {now id : String} :
    id ∈ (refreshLocked s reply revision now).2.2 ↔
      pendingChannel s.requestsById id ≠ none ∧
        pendingChannel (refreshLocked s reply revision now).1.requestsById id = none := by
  have hremoved : (refreshLocked s reply revision now).2.2 =
      s.pendingRequestIds.filter fun id =>
        !(refreshLocked s reply revision now).1.pendingRequestIds.contains id := rfl
  have hafter := @mem_pendingRequestIds _ (cached_refreshLocked h reply revision now) id
  rw [hremoved, List.mem_filter, mem_pendingRequestIds h, Bool.not_eq_true', ← Bool.not_eq_true,
    List.contains_iff_mem, hafter, not_not]

theorem cached_revokedLocked (s : StateReducer) : Cached (revokedLocked s).1 :=
  cached_of_same (coherent_clearLoadedData s).toCached (SameMap.refl _) rfl rfl rfl rfl

end Nod.Client
