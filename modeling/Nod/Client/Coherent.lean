import Nod.Client.Inbox

/-
  The reducer's caches against the map of held requests. `Tracks` says that the counts and the
  pending set of a state are those of a map; `Coherent` adds the visible list and the selection.
  Every operation of the reducer keeps `Coherent` (`coherent_apply`), so every sequence of
  operations ends in a state whose caches are read off its map (`caches_represent_requests`).
-/

namespace Nod.Client

open Std Lib Nod.Proto StateReducer

def isPendingIn (channelId : String) (r : Request) : Bool :=
  isPending r && r.channelId == channelId

/-- The number of pending requests of a channel. -/
def pendingIn (m : ExtTreeMap String Request) (channelId : String) : Nat :=
  Tally.countWhere (isPendingIn channelId) m

/-- The channel of a request while it is pending. -/
def pendingChannel (m : ExtTreeMap String Request) (id : String) : Option String :=
  (m[id]?.filter isPending).map (·.channelId)

structure Tracks (s : StateReducer) (m : ExtTreeMap String Request) : Prop where
  counts : Tally.IsTally s.state.pendingCountsByChannel (pendingIn m)
  known : ∀ id : String, s.knownPendingRequestChannels[id]? = pendingChannel m id

/-- The selection names a shown request, or nothing is shown. -/
def SelectsFrom (selected : Option String) (shown : List Request) : Prop :=
  match selected with
  | some id => ∃ r ∈ shown, r.id = id
  | none => shown = []

/-- The caches without the selection, which the runtime also sets by itself. -/
structure Cached (s : StateReducer) : Prop where
  keyed : Keyed s.requestsById
  tracks : Tracks s s.requestsById
  visible : s.state.requests = inbox s.requestsById s.state.selectedChannelId

structure Coherent (s : StateReducer) : Prop extends Cached s where
  selection : SelectsFrom s.state.selectedRequestId s.state.requests

/-! ## Visible list and selection -/

theorem ensureSelectedRequest_spec (s : StateReducer) :
    ∃ selected, s.ensureSelectedRequest =
      { s with state := { s.state with selectedRequestId := selected } } ∧
      SelectsFrom selected s.state.requests := by
  have hhead : SelectsFrom (s.state.requests.head?.map (·.id)) s.state.requests := by
    cases hreq : s.state.requests with
    | nil => rfl
    | cons r rest => exact ⟨r, List.mem_cons_self, rfl⟩
  unfold ensureSelectedRequest
  cases hsel : s.state.selectedRequestId with
  | none => exact ⟨_, rfl, hhead⟩
  | some id =>
    dsimp only
    by_cases hany : s.state.requests.any (·.id == id) = true
    · refine ⟨some id, ?_, ?_⟩
      · rw [if_pos hany, ← hsel]
      · obtain ⟨r, hr, hid⟩ := List.any_eq_true.mp hany
        exact ⟨r, hr, eq_of_beq hid⟩
    · rw [if_neg hany]
      exact ⟨_, rfl, hhead⟩

theorem updateVisibleRequests_spec {s : StateReducer} (hkeyed : Keyed s.requestsById) :
    ∃ selected, s.updateVisibleRequests =
      { s with
        state :=
          { s.state with
            requests := inbox s.requestsById s.state.selectedChannelId
            selectedRequestId := selected } } ∧
      SelectsFrom selected (inbox s.requestsById s.state.selectedChannelId) := by
  unfold updateVisibleRequests
  rw [visibleRequestsForSelectedChannel_eq hkeyed]
  exact ensureSelectedRequest_spec _

theorem coherent_updateVisibleRequests {s : StateReducer} (hkeyed : Keyed s.requestsById)
    (htracks : Tracks s s.requestsById) : Coherent s.updateVisibleRequests := by
  obtain ⟨selected, heq, hsel⟩ := updateVisibleRequests_spec hkeyed
  rw [heq]
  exact ⟨⟨hkeyed, ⟨htracks.counts, htracks.known⟩, rfl⟩, hsel⟩

theorem coherent_ensureSelectedRequest {s : StateReducer} (h : Coherent s) :
    Coherent s.ensureSelectedRequest := by
  obtain ⟨selected, heq, hsel⟩ := ensureSelectedRequest_spec s
  rw [heq]
  exact ⟨⟨h.keyed, ⟨h.tracks.counts, h.tracks.known⟩, h.visible⟩, hsel⟩

theorem coherent_selectChannel {s : StateReducer} (h : Cached s) (channelId : Option String) :
    Coherent (s.selectChannel channelId) :=
  coherent_updateVisibleRequests h.keyed ⟨h.tracks.counts, h.tracks.known⟩

/-! ## Pending tracking -/

theorem keyed_insert {m : ExtTreeMap String Request} (h : Keyed m) (r : Request) :
    Keyed (m.insert r.id r) := by
  intro id r' hr'
  rw [ExtTreeMap.getElem?_insert] at hr'
  split at hr'
  · rw [← Option.some.inj hr']
    exact LawfulEqCmp.eq_of_compare ‹_›
  · exact h id r' hr'

theorem pendingChannel_insert (m : ExtTreeMap String Request) (r : Request) (id : String) :
    pendingChannel (m.insert r.id r) id =
      if id = r.id then (if isPending r then some r.channelId else none)
      else pendingChannel m id := by
  unfold pendingChannel
  rw [ExtTreeMap.getElem?_insert]
  by_cases hid : id = r.id
  · rw [hid, if_pos ReflCmp.compare_self, if_pos rfl]
    cases hp : isPending r <;> simp [hp, Option.filter]
  · rw [if_neg (OrdMap.compare_ne fun he => hid he.symm), if_neg hid]

theorem pendingIn_insert (m : ExtTreeMap String Request) (r : Request) (channelId : String) :
    pendingIn (m.insert r.id r) channelId +
        (if pendingChannel m r.id = some channelId then 1 else 0) =
      pendingIn m channelId + (if isPendingIn channelId r then 1 else 0) := by
  have hcounted : (Tally.counted (isPendingIn channelId) m r.id = true) =
      (pendingChannel m r.id = some channelId) := by
    unfold Tally.counted pendingChannel isPendingIn
    cases m[r.id]? with
    | none => simp
    | some r' => cases hp : isPending r' <;> simp [hp, Option.filter]
  have h := Tally.countWhere_insert (isPendingIn channelId) m r.id r
  simp only [hcounted] at h
  exact h

/-- The visible list adds nothing to the pending set when it shows held requests only. -/
theorem previousPendingChannel_eq {s : StateReducer} (h : Cached s) (r : Request) :
    s.previousPendingChannel r = pendingChannel s.requestsById r.id := by
  unfold previousPendingChannel
  rw [h.tracks.known r.id]
  cases hp : pendingChannel s.requestsById r.id with
  | some channelId => rfl
  | none =>
    have hfind : (s.state.requests.find? fun existing =>
        existing.id == r.id && isPending existing) = none := by
      rw [List.find?_eq_none]
      intro existing hmem hcond
      obtain ⟨hid, hpend⟩ := (Bool.and_eq_true _ _).mp hcond
      rw [h.visible] at hmem
      obtain ⟨id, hget⟩ := OrdMap.mem_values.mp (of_mem_inbox hmem).1
      have hkey : id = r.id := by rw [← h.keyed id existing hget, eq_of_beq hid]
      subst hkey
      unfold pendingChannel at hp
      rw [hget] at hp
      simp [Option.filter, hpend] at hp
    rw [hfind]
    rfl

theorem isTally_insert {counts : ExtTreeMap String Nat} {m : ExtTreeMap String Request}
    {r : Request} {n : String → Nat} (h : Tally.IsTally counts n)
    (hn : ∀ c, n c + (if pendingChannel m r.id = some c then 1 else 0) =
      pendingIn m c + (if isPendingIn c r then 1 else 0)) :
    Tally.IsTally counts (pendingIn (m.insert r.id r)) := by
  refine h.congr fun c => ?_
  have h1 := pendingIn_insert m r c
  have h2 := hn c
  omega

/-- The tracking of one request leaves the rest of the state alone. -/
theorem updatePendingTracking_frame (s : StateReducer) (r : Request) :
    ∃ counts known, (s.updatePendingTracking r).1 =
      { s with
        state := { s.state with pendingCountsByChannel := counts }
        knownPendingRequestChannels := known } := by
  unfold updatePendingTracking
  split
  · exact ⟨_, _, rfl⟩
  · exact ⟨_, _, rfl⟩
  · exact ⟨_, _, rfl⟩
  · exact ⟨_, _, rfl⟩

theorem isPendingIn_eq (c : String) (r : Request) :
    isPendingIn c r = (isPending r && decide (r.channelId = c)) := by
  unfold isPendingIn
  rw [Bool.beq_eq_decide_eq]

section Outcome

variable {s : StateReducer} {m : ExtTreeMap String Request} {r : Request} (h : Tracks s m)
include h

theorem known_insert (hp : isPending r = true) (id : String) :
    (s.knownPendingRequestChannels.insert r.id r.channelId)[id]? =
      pendingChannel (m.insert r.id r) id := by
  rw [ExtTreeMap.getElem?_insert, pendingChannel_insert]
  by_cases hid : id = r.id
  · rw [hid, if_pos ReflCmp.compare_self, if_pos rfl, if_pos hp]
  · rw [if_neg (OrdMap.compare_ne fun he => hid he.symm), if_neg hid]
    exact h.known id

theorem tracks_unchanged (hprev : pendingChannel m r.id = none) (hp : isPending r = false) :
    Tracks s (m.insert r.id r) := by
  refine ⟨isTally_insert h.counts fun c => ?_, fun id => ?_⟩
  · rw [hprev, isPendingIn_eq, hp]
    simp
  · rw [pendingChannel_insert]
    by_cases hid : id = r.id
    · rw [hid, if_pos rfl, h.known, hprev, hp]
      rfl
    · rw [if_neg hid]
      exact h.known id

theorem tracks_markPending (hprev : pendingChannel m r.id = none) (hp : isPending r = true) :
    Tracks (s.markPending r) (m.insert r.id r) := by
  refine ⟨isTally_insert (h.counts.increment r.channelId) fun c => ?_, known_insert h hp⟩
  rw [hprev, isPendingIn_eq, hp]
  simp [eq_comm]

omit h in
/-- A request that was pending in a channel is among the pending requests of the channel. -/
theorem pendingIn_pos {c : String} (hprev : pendingChannel m r.id = some c) :
    0 < pendingIn m c := by
  have hcounted := pendingIn_insert m { r with status := .cancelled } c
  rw [show ({ r with status := .cancelled } : Request).id = r.id from rfl, hprev, if_pos rfl,
    isPendingIn_eq] at hcounted
  simp [isPending] at hcounted
  omega

theorem tracks_clearPending {previous : String} (hprev : pendingChannel m r.id = some previous)
    (hp : isPending r = false) :
    Tracks (s.clearPending r.id previous) (m.insert r.id r) := by
  refine ⟨isTally_insert (h.counts.decrement previous) fun c => ?_, fun id => ?_⟩
  · rw [hprev, isPendingIn_eq, hp]
    by_cases hc : c = previous
    · have hpos := pendingIn_pos hprev
      subst hc
      simp
      omega
    · have hc' : previous ≠ c := fun he => hc he.symm
      simp [hc, hc']
  · show (s.knownPendingRequestChannels.erase r.id)[id]? = _
    rw [ExtTreeMap.getElem?_erase, pendingChannel_insert]
    by_cases hid : id = r.id
    · rw [hid, if_pos ReflCmp.compare_self, if_pos rfl, hp]
      rfl
    · rw [if_neg (OrdMap.compare_ne fun he => hid he.symm), if_neg hid]
      exact h.known id

theorem tracks_updatePendingChannel {previous : String}
    (hprev : pendingChannel m r.id = some previous) (hp : isPending r = true) :
    Tracks (s.updatePendingChannel previous r) (m.insert r.id r) := by
  refine ⟨?_, known_insert h hp⟩
  show Tally.IsTally (if previous ≠ r.channelId then _ else _) _
  by_cases hsame : previous = r.channelId
  · rw [if_neg (not_not.mpr hsame)]
    refine isTally_insert h.counts fun c => ?_
    rw [hprev, isPendingIn_eq, hp, hsame]
    simp
  · rw [if_pos hsame]
    -- one less in the old channel, one more in the new one
    refine isTally_insert ((h.counts.decrement previous).increment r.channelId) fun c => ?_
    have hpos := pendingIn_pos hprev
    rw [hprev, isPendingIn_eq, hp]
    by_cases hc : c = previous
    · subst hc
      have hne : r.channelId ≠ c := fun he => hsame he.symm
      simp [hsame, hne]
      omega
    · have hc' : previous ≠ c := fun he => hc he.symm
      simp [hc, hc', eq_comm]

end Outcome

theorem tracks_updatePendingTracking {s : StateReducer} (h : Cached s) (r : Request) :
    Tracks (s.updatePendingTracking r).1 (s.requestsById.insert r.id r) := by
  unfold updatePendingTracking
  rw [previousPendingChannel_eq h r]
  cases hprev : pendingChannel s.requestsById r.id with
  | none =>
    cases hp : isPending r with
    | true => exact tracks_markPending h.tracks hprev hp
    | false => exact tracks_unchanged h.tracks hprev hp
  | some previous =>
    cases hp : isPending r with
    | true => exact tracks_updatePendingChannel h.tracks hprev hp
    | false => exact tracks_clearPending h.tracks hprev hp

/-! ## Updates and snapshots -/

/-- The held version of the request makes the update stale. -/
def staleFor (s : StateReducer) (r : Request) : Bool :=
  s.requestsById[r.id]?.any (requestIsStale r)

theorem applyRequestUpdate_of_stale {s : StateReducer} {r : Request} (h : staleFor s r = true) :
    s.applyRequestUpdate r = (s, false) := by
  unfold applyRequestUpdate
  exact if_pos h

theorem coherent_applyRequestUpdate_of_fresh {s : StateReducer} (h : Cached s) {r : Request}
    (hfresh : staleFor s r = false) : Coherent (s.applyRequestUpdate r).1 := by
  have htracks := tracks_updatePendingTracking h r
  obtain ⟨counts, known, hframe⟩ := updatePendingTracking_frame s r
  unfold staleFor at hfresh
  unfold applyRequestUpdate
  rw [hfresh, if_neg Bool.false_ne_true]
  rw [hframe] at htracks
  simp only [hframe]
  exact coherent_updateVisibleRequests (keyed_insert h.keyed r) ⟨htracks.counts, htracks.known⟩

theorem coherent_applyRequestUpdate {s : StateReducer} (h : Coherent s) (r : Request) :
    Coherent (s.applyRequestUpdate r).1 := by
  cases hstale : staleFor s r with
  | true =>
    rw [applyRequestUpdate_of_stale hstale]
    exact h
  | false => exact coherent_applyRequestUpdate_of_fresh h.toCached hstale

def listedById (requests : List Request) : ExtTreeMap String Request :=
  ExtTreeMap.ofList (requests.map fun r => (r.id, r))

theorem of_getElem?_listedById {requests : List Request} {id : String} {r : Request}
    (h : (listedById requests)[id]? = some r) : r ∈ requests ∧ r.id = id := by
  obtain ⟨r', hr', heq⟩ := List.mem_map.mp (OrdMap.mem_of_getElem?_ofList h)
  obtain ⟨hid, rfl⟩ := Prod.mk.inj heq
  exact ⟨hr', hid⟩

theorem ne_of_listedById_eq_none {requests : List Request} {id : String}
    (h : (listedById requests)[id]? = none) : ∀ r ∈ requests, r.id ≠ id := by
  intro r hr hid
  have hmem : id ∈ listedById requests := by
    unfold listedById
    rw [ExtTreeMap.mem_ofList, List.map_map, List.contains_iff_mem]
    exact List.mem_map.mpr ⟨r, hr, hid⟩
  rw [ExtTreeMap.mem_iff_isSome_getElem?, h] at hmem
  cases hmem

theorem getElem?_mergeSnapshot (s : StateReducer) (requests : List Request)
    (startedAtRevision : Nat) (id : String) :
    (s.mergeSnapshot requests startedAtRevision)[id]? =
      match s.requestsById[id]? with
      | some held =>
        if s.keptInSnapshot startedAtRevision id held (listedById requests)[id]? then some held
        else (listedById requests)[id]?
      | none => (listedById requests)[id]? := by
  have hpatch := OrdMap.getElem?_patch (s.keptInSnapshot startedAtRevision) s.requestsById
    (listedById requests) id
  have hmerge : s.mergeSnapshot requests startedAtRevision =
      s.requestsById.foldl (OrdMap.patchStep (s.keptInSnapshot startedAtRevision))
        (listedById requests) := rfl
  rw [hmerge, hpatch]
  cases s.requestsById[id]? <;> rfl

theorem keyed_mergeSnapshot {s : StateReducer} (h : Keyed s.requestsById)
    (requests : List Request) (startedAtRevision : Nat) :
    Keyed (s.mergeSnapshot requests startedAtRevision) := by
  intro id r hr
  rw [getElem?_mergeSnapshot] at hr
  have hlisted : (listedById requests)[id]? = some r → r.id = id := fun hl =>
    (of_getElem?_listedById hl).2
  cases hheld : s.requestsById[id]? with
  | none =>
    rw [hheld] at hr
    exact hlisted hr
  | some held =>
    rw [hheld] at hr
    dsimp only at hr
    split at hr
    · rw [← Option.some.inj hr]
      exact h id held hheld
    · exact hlisted hr

theorem tracks_snapshot {s : StateReducer} {m : ExtTreeMap String Request} (h : Keyed m)
    (hcounts : s.state.pendingCountsByChannel =
      countPendingByChannel (pendingRequests (OrdMap.values m)))
    (hknown : s.knownPendingRequestChannels =
      pendingRequestChannels (pendingRequests (OrdMap.values m))) : Tracks s m := by
  constructor
  · rw [hcounts]
    have hfold := Tally.isTally_foldl (fun r : Request => r.channelId)
      (pendingRequests (OrdMap.values m)) Tally.isTally_empty
    refine hfold.congr fun c => ?_
    unfold pendingIn pendingRequests
    rw [Tally.countWhere_eq_countP, List.countP_filter, Nat.zero_add]
    refine List.countP_congr fun r _ => ?_
    rw [isPendingIn_eq]
    simp [and_comm]
  · intro id
    have hids : ((pendingRequests (OrdMap.values m)).map fun r => (r.id, r.channelId)).map
        Prod.fst = (pendingRequests (OrdMap.values m)).map Request.id := by
      rw [List.map_map]
      rfl
    have hnodup := hids ▸ h.nodup_ids.sublist (List.filter_sublist.map Request.id)
    rw [hknown]
    ext channelId
    rw [pendingRequestChannels, OrdMap.getElem?_ofList_iff hnodup]
    unfold pendingRequests pendingChannel
    simp only [List.mem_map, List.mem_filter, Prod.mk.injEq, Option.map_eq_some_iff,
      Option.filter_eq_some_iff, OrdMap.mem_values]
    constructor
    · rintro ⟨r, ⟨⟨key, hget⟩, hp⟩, rfl, rfl⟩
      have hkey := h key r hget
      subst hkey
      exact ⟨r, ⟨hget, hp⟩, rfl⟩
    · rintro ⟨r, ⟨hget, hp⟩, rfl⟩
      exact ⟨r, ⟨⟨id, hget⟩, hp⟩, h id r hget, rfl⟩

theorem ensureSelectedChannel_spec (s : StateReducer) :
    ∃ selected, s.ensureSelectedChannel =
      { s with state := { s.state with selectedChannelId := selected } } := by
  unfold ensureSelectedChannel
  split
  · exact ⟨s.state.selectedChannelId, rfl⟩
  · split
    · exact ⟨s.state.selectedChannelId, rfl⟩
    · exact ⟨none, rfl⟩

theorem coherent_replaceRequests (s : StateReducer) {snapshot : ExtTreeMap String Request}
    (h : Keyed snapshot) : Coherent (s.replaceRequests snapshot).1 := by
  unfold replaceRequests
  refine coherent_ensureSelectedRequest (coherent_updateVisibleRequests h ?_)
  exact tracks_snapshot h rfl rfl

theorem coherent_applySnapshot {s : StateReducer} (h : Keyed s.requestsById) (currentUser : Option User)
    (devices : List UserDevice) (channels : List Channel) (requests : List Request)
    (startedAtRevision : Nat) (now : String) :
    Coherent (s.applySnapshot currentUser devices channels requests startedAtRevision now).1 := by
  have hcore : ∀ s' : StateReducer, Keyed s'.requestsById →
      Coherent (s'.replaceRequests (s'.mergeSnapshot requests startedAtRevision)).1 := fun s' hk =>
    coherent_replaceRequests s' (keyed_mergeSnapshot hk requests startedAtRevision)
  unfold applySnapshot
  obtain ⟨selected, heq⟩ := ensureSelectedChannel_spec
    { s with
      state := { s.state with currentUser := currentUser, devices := devices, channels := channels } }
  rw [heq]
  have h' := hcore { s with
    state :=
      { s.state with
        currentUser := currentUser, devices := devices, channels := channels,
        selectedChannelId := selected } } h
  exact ⟨⟨h'.keyed, ⟨h'.tracks.counts, h'.tracks.known⟩, h'.visible⟩, h'.selection⟩

theorem coherent_applyChannel {s : StateReducer} (h : Coherent s) (channel : Option Channel) :
    Coherent (s.applyChannel channel) := by
  cases channel with
  | none => exact h
  | some channel => exact ⟨⟨h.keyed, ⟨h.tracks.counts, h.tracks.known⟩, h.visible⟩, h.selection⟩

theorem coherent_applySyncEnvelope {s : StateReducer} (h : Coherent s) (envelope : SyncEnvelope) :
    Coherent (s.applySyncEnvelope envelope).1 := by
  have hconnected : Coherent { s with state := { s.state with isSyncConnected := true } } :=
    ⟨⟨h.keyed, ⟨h.tracks.counts, h.tracks.known⟩, h.visible⟩, h.selection⟩
  have hchannel := coherent_applyChannel hconnected envelope.payload.channel
  unfold applySyncEnvelope
  cases envelope.payload.request with
  | none => exact hchannel
  | some request => exact coherent_applyRequestUpdate hchannel request

theorem coherent_empty {s : StateReducer} (hmap : s.requestsById = ∅)
    (hcounts : s.state.pendingCountsByChannel = ∅) (hknown : s.knownPendingRequestChannels = ∅)
    (hreq : s.state.requests = []) (hsel : s.state.selectedRequestId = none) : Coherent s := by
  have hvalues : OrdMap.values (∅ : ExtTreeMap String Request) = [] := by
    unfold OrdMap.values
    rw [ExtTreeMap.toList_eq_nil_iff.mpr rfl]
    rfl
  refine ⟨⟨?_, ⟨?_, ?_⟩, ?_⟩, ?_⟩
  · intro id r hr
    rw [hmap] at hr
    simp at hr
  · rw [hcounts, hmap]
    exact Tally.isTally_empty.congr fun c => (Tally.countWhere_empty _).symm
  · intro id
    rw [hknown, hmap]
    simp [pendingChannel]
  · rw [hreq, hmap]
    unfold inbox
    rw [hvalues]
    simp [newestFirst]
  · rw [hsel, hreq]
    rfl

theorem coherent_new (servers : List ServerProfile) (selectedServerId : Option String)
    (notificationSound : String) : Coherent (new servers selectedServerId notificationSound) :=
  coherent_empty rfl rfl rfl rfl rfl

theorem coherent_clearLoadedData (s : StateReducer) : Coherent s.clearLoadedData :=
  coherent_empty rfl rfl rfl rfl rfl

theorem coherent_removeServer {s : StateReducer} (h : Coherent s) (serverId : String) :
    Coherent (s.removeServer serverId) := by
  unfold removeServer
  dsimp only
  split
  · exact coherent_empty rfl rfl rfl rfl rfl
  · exact ⟨⟨h.keyed, ⟨h.tracks.counts, h.tracks.known⟩, h.visible⟩, h.selection⟩

/-! ## Whole runs of the reducer -/

inductive ReducerOp where
  | applySnapshot (currentUser : Option User) (devices : List UserDevice)
      (channels : List Channel) (requests : List Request) (startedAtRevision : Nat)
      (now : String)
  | applySyncEnvelope (envelope : SyncEnvelope)
  | applyRequestUpdate (request : Request)
  | selectChannel (channelId : Option String)
  | upsertServer (server : ServerProfile)
  | setSelectedServer (serverId : String)
  | removeServer (serverId : String)
  | clearLoadedData
  | markSyncConnected (connected : Bool)
  | setSyncPhase (phase : SyncPhase)
  | setNotificationDeliveryMode (mode : NotificationDeliveryMode)
  | setError (error : String)

def ReducerOp.apply (s : StateReducer) : ReducerOp → StateReducer
  | .applySnapshot currentUser devices channels requests startedAtRevision now =>
    (s.applySnapshot currentUser devices channels requests startedAtRevision now).1
  | .applySyncEnvelope envelope => (s.applySyncEnvelope envelope).1
  | .applyRequestUpdate request => (s.applyRequestUpdate request).1
  | .selectChannel channelId => s.selectChannel channelId
  | .upsertServer server => s.upsertServer server
  | .setSelectedServer serverId => s.setSelectedServer serverId
  | .removeServer serverId => s.removeServer serverId
  | .clearLoadedData => s.clearLoadedData
  | .markSyncConnected connected => s.markSyncConnected connected
  | .setSyncPhase phase => s.setSyncPhase phase
  | .setNotificationDeliveryMode mode => s.setNotificationDeliveryMode mode
  | .setError error => s.setError error

def runReducer (s : StateReducer) (ops : List ReducerOp) : StateReducer :=
  ops.foldl ReducerOp.apply s

theorem coherent_apply {s : StateReducer} (h : Coherent s) (op : ReducerOp) :
    Coherent (op.apply s) := by
  have hsame : ∀ {s' : StateReducer}, s'.requestsById = s.requestsById →
      s'.knownPendingRequestChannels = s.knownPendingRequestChannels →
      s'.state.pendingCountsByChannel = s.state.pendingCountsByChannel →
      s'.state.requests = s.state.requests →
      s'.state.selectedChannelId = s.state.selectedChannelId →
      s'.state.selectedRequestId = s.state.selectedRequestId → Coherent s' := by
    intro s' hmap hknown hcounts hreq hchan hsel
    refine ⟨⟨hmap ▸ h.keyed, ⟨?_, ?_⟩, ?_⟩, ?_⟩
    · rw [hcounts, hmap]
      exact h.tracks.counts
    · rw [hknown, hmap]
      exact h.tracks.known
    · rw [hreq, hmap, hchan]
      exact h.visible
    · rw [hsel, hreq]
      exact h.selection
  cases op with
  | applySnapshot currentUser devices channels requests startedAtRevision now =>
    exact coherent_applySnapshot h.keyed currentUser devices channels requests startedAtRevision
      now
  | applySyncEnvelope envelope => exact coherent_applySyncEnvelope h envelope
  | applyRequestUpdate request => exact coherent_applyRequestUpdate h request
  | selectChannel channelId => exact coherent_selectChannel h.toCached channelId
  | upsertServer server => exact hsame rfl rfl rfl rfl rfl rfl
  | setSelectedServer serverId => exact coherent_clearLoadedData _
  | removeServer serverId => exact coherent_removeServer h serverId
  | clearLoadedData => exact coherent_clearLoadedData s
  | markSyncConnected connected => exact hsame rfl rfl rfl rfl rfl rfl
  | setSyncPhase phase => exact hsame rfl rfl rfl rfl rfl rfl
  | setNotificationDeliveryMode mode => exact hsame rfl rfl rfl rfl rfl rfl
  | setError error => exact hsame rfl rfl rfl rfl rfl rfl

theorem coherent_run {s : StateReducer} (h : Coherent s) (ops : List ReducerOp) :
    Coherent (runReducer s ops) := by
  induction ops generalizing s with
  | nil => exact h
  | cons op ops ih => exact ih (coherent_apply h op)

/-- The caches of a reducer state, read off its map of requests. -/
structure Represents (s : StateReducer) : Prop where
  counts : ∀ c : String, s.state.pendingCountsByChannel[c]? =
    if pendingIn s.requestsById c = 0 then none else some (pendingIn s.requestsById c)
  pendingSet : ∀ id : String, s.knownPendingRequestChannels[id]? = pendingChannel s.requestsById id
  visible : s.state.requests = inbox s.requestsById s.state.selectedChannelId
  everyPending : ∀ (id : String) r, s.requestsById[id]? = some r → isPending r = true →
    shownIn s.state.selectedChannelId r = true → r ∈ s.state.requests
  onlyHeld : ∀ r ∈ s.state.requests, s.requestsById[r.id]? = some r
  handledLimit :
    s.state.requests.countP (fun r => !isPending r) ≤ handledRequestDisplayLimit
  noRepeats : (s.state.requests.map Request.id).Nodup
  selected : SelectsFrom s.state.selectedRequestId s.state.requests

theorem Cached.held_of_shown {s : StateReducer} (h : Cached s) (r : Request)
    (hr : r ∈ s.state.requests) : s.requestsById[r.id]? = some r := by
  rw [h.visible] at hr
  obtain ⟨id, hget⟩ := OrdMap.mem_values.mp (of_mem_inbox hr).1
  rw [h.keyed id r hget]
  exact hget

theorem Coherent.represents {s : StateReducer} (h : Coherent s) : Represents s where
  counts := h.tracks.counts
  pendingSet := h.tracks.known
  visible := h.visible
  everyPending id r hget hp hs := by
    rw [h.visible]
    exact mem_inbox_of_pending (OrdMap.mem_values.mpr ⟨id, hget⟩) hs hp
  onlyHeld := h.toCached.held_of_shown
  handledLimit := by
    rw [h.visible]
    exact countP_handled_inbox _ _
  noRepeats := by
    rw [h.visible]
    exact nodup_inbox_ids h.keyed _
  selected := h.selection

/-- After any operations from a new client, whatever the server sent, the four caches are those
    of the map of requests. -/
theorem caches_represent_requests (servers : List ServerProfile)
    (selectedServerId : Option String) (notificationSound : String) (ops : List ReducerOp) :
    Represents (runReducer (new servers selectedServerId notificationSound) ops) :=
  (coherent_run (coherent_new servers selectedServerId notificationSound) ops).represents

end Nod.Client
