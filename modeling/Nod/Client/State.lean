import Nod.Client.Models
import Nod.Lib.Tally
import Nod.Lib.Shortlist

/-
  The client's in-memory state and its reducer (`nod-client-core/src/state.rs`): the map of
  requests, and the counts, pending set, visible list and selection cached beside it.
-/

namespace Nod.Client

open Std Lib Nod.Proto

def handledRequestDisplayLimit : Nat := 500

def syncKindCreated : String := "created"

structure StateReducer where
  state : ClientState
  knownPendingRequestChannels : ExtTreeMap String String
  hasLoadedPendingSnapshot : Bool
  requestsById : ExtTreeMap String Request
  revision : Nat
  requestRevisions : ExtTreeMap String Nat

/-! ## Helpers over requests -/

def isPending (r : Request) : Bool := r.status == .pending

def requestIsStale (candidate current : Request) : Bool :=
  decide (candidate.updatedAt < current.updatedAt) ||
    (current.updatedAt == candidate.updatedAt && !isPending current && isPending candidate)

def pendingRequests (requests : List Request) : List Request :=
  requests.filter isPending

def incrementPendingCount (counts : ExtTreeMap String Nat) (channelId : String) :
    ExtTreeMap String Nat :=
  Tally.increment counts channelId

def decrementPendingCount (counts : ExtTreeMap String Nat) (channelId : String) :
    ExtTreeMap String Nat :=
  Tally.decrement counts channelId

def countPendingByChannel (requests : List Request) : ExtTreeMap String Nat :=
  requests.foldl (fun counts r => incrementPendingCount counts r.channelId) ∅

def pendingRequestChannels (requests : List Request) : ExtTreeMap String String :=
  ExtTreeMap.ofList (requests.map fun r => (r.id, r.channelId))

def requestStatusRank : RequestStatus → Nat
  | .pending => 0
  | .resolved | .expired | .cancelled => 1

/-- Pending first, then the newest, then the largest id. -/
def displayOrder (lhs rhs : Request) : Ordering :=
  (compare (requestStatusRank lhs.status) (requestStatusRank rhs.status)).then
    ((compare rhs.createdAt.key lhs.createdAt.key).then (compare rhs.id lhs.id))

def displayedBefore (lhs rhs : Request) : Bool := (displayOrder lhs rhs).isLE

def visibleRequests (requests : List Request) : List Request :=
  Shortlist.keepWithin isPending handledRequestDisplayLimit 0 (requests.mergeSort displayedBefore)

namespace StateReducer

def new (servers : List ServerProfile) (selectedServerId : Option String)
    (notificationSound : String) : StateReducer where
  state :=
    { servers := servers
      selectedServerId := selectedServerId
      currentUser := none
      devices := []
      channels := []
      pendingCountsByChannel := ∅
      requests := []
      selectedChannelId := none
      selectedRequestId := none
      notificationSound := notificationSound
      notificationDeliveryMode := .websocket
      isRegistered := !servers.isEmpty
      isSyncConnected := false
      syncPhase := .offline
      lastSyncedAt := none
      lastError := none }
  knownPendingRequestChannels := ∅
  hasLoadedPendingSnapshot := false
  requestsById := ∅
  revision := 0
  requestRevisions := ∅

/-! ## Servers -/

def selectedServer (s : StateReducer) : Option ServerProfile :=
  (s.state.selectedServerId.bind fun id => s.state.servers.find? (·.id == id)).or
    s.state.servers.head?

def clearLoadedData (s : StateReducer) : StateReducer :=
  { s with
    state :=
      { s.state with
        currentUser := none
        devices := []
        channels := []
        pendingCountsByChannel := ∅
        requests := []
        selectedChannelId := none
        selectedRequestId := none
        lastSyncedAt := none }
    knownPendingRequestChannels := ∅
    hasLoadedPendingSnapshot := false
    requestsById := ∅
    requestRevisions := ∅ }

/-- Replaces the first server with that id, or adds it at the end. -/
def upsertServer (s : StateReducer) (server : ServerProfile) : StateReducer :=
  let servers :=
    if s.state.servers.any (·.id == server.id) then
      s.state.servers.replaceF fun existing =>
        if existing.id == server.id then some server else none
    else s.state.servers ++ [server]
  { s with state := { s.state with servers := servers, isRegistered := !servers.isEmpty } }

def removeServer (s : StateReducer) (serverId : String) : StateReducer :=
  let servers := s.state.servers.filter (·.id != serverId)
  let s := { s with state := { s.state with servers := servers } }
  let s :=
    if s.state.selectedServerId = some serverId then
      clearLoadedData
        { s with state := { s.state with selectedServerId := servers.head?.map (·.id) } }
    else s
  { s with state := { s.state with isRegistered := !servers.isEmpty } }

def setSelectedServer (s : StateReducer) (serverId : String) : StateReducer :=
  clearLoadedData { s with state := { s.state with selectedServerId := some serverId } }

/-! ## Visible list and selection -/

def pendingRequestIds (s : StateReducer) : List String :=
  s.knownPendingRequestChannels.keys

def visibleRequestsForSelectedChannel (s : StateReducer) (requests : List Request) :
    List Request :=
  match s.state.selectedChannelId with
  | some channelId => visibleRequests (requests.filter (·.channelId == channelId))
  | none => visibleRequests requests

def ensureSelectedRequest (s : StateReducer) : StateReducer :=
  let selectionIsVisible :=
    match s.state.selectedRequestId with
    | some id => s.state.requests.any (·.id == id)
    | none => false
  if selectionIsVisible then s
  else { s with state := { s.state with selectedRequestId := s.state.requests.head?.map (·.id) } }

def updateVisibleRequests (s : StateReducer) : StateReducer :=
  ensureSelectedRequest
    { s with
      state :=
        { s.state with
          requests := s.visibleRequestsForSelectedChannel (OrdMap.values s.requestsById) } }

def selectChannel (s : StateReducer) (channelId : Option String) : StateReducer :=
  updateVisibleRequests { s with state := { s.state with selectedChannelId := channelId } }

/-- A selected channel the user no longer sees is deselected. -/
def ensureSelectedChannel (s : StateReducer) : StateReducer :=
  match s.state.selectedChannelId with
  | none => s
  | some id =>
    if (s.state.channels.filter (·.subscribed)).any (·.id == id) then s
    else { s with state := { s.state with selectedChannelId := none } }

/-! ## Pending tracking -/

def previousPendingChannel (s : StateReducer) (request : Request) : Option String :=
  s.knownPendingRequestChannels[request.id]?.or
    ((s.state.requests.find? fun existing => existing.id == request.id && isPending existing).map
      (·.channelId))

def markPending (s : StateReducer) (request : Request) : StateReducer :=
  { s with
    state :=
      { s.state with
        pendingCountsByChannel :=
          incrementPendingCount s.state.pendingCountsByChannel request.channelId }
    knownPendingRequestChannels :=
      s.knownPendingRequestChannels.insert request.id request.channelId }

def clearPending (s : StateReducer) (requestId channelId : String) : StateReducer :=
  { s with
    state :=
      { s.state with
        pendingCountsByChannel := decrementPendingCount s.state.pendingCountsByChannel channelId }
    knownPendingRequestChannels := s.knownPendingRequestChannels.erase requestId }

def updatePendingChannel (s : StateReducer) (previousChannelId : String) (request : Request) :
    StateReducer :=
  let counts :=
    if previousChannelId ≠ request.channelId then
      incrementPendingCount
        (decrementPendingCount s.state.pendingCountsByChannel previousChannelId)
        request.channelId
    else s.state.pendingCountsByChannel
  { s with
    state := { s.state with pendingCountsByChannel := counts }
    knownPendingRequestChannels :=
      s.knownPendingRequestChannels.insert request.id request.channelId }

/-- The new state, and whether the request is newly pending. -/
def updatePendingTracking (s : StateReducer) (request : Request) : StateReducer × Bool :=
  match s.previousPendingChannel request, isPending request with
  | none, true => (s.markPending request, true)
  | some previousChannelId, false => (s.clearPending request.id previousChannelId, false)
  | some previousChannelId, true => (s.updatePendingChannel previousChannelId request, false)
  | none, false => (s, false)

def notificationCandidatesAfterRefresh (s : StateReducer) (pending : List Request) :
    List Request :=
  -- the first refresh is a baseline
  if !s.hasLoadedPendingSnapshot then []
  else pending.filter fun r => !s.knownPendingRequestChannels.contains r.id

def rememberPendingRequests (s : StateReducer) (pending : List Request) : StateReducer :=
  { s with
    knownPendingRequestChannels := pendingRequestChannels pending
    hasLoadedPendingSnapshot := true }

/-! ## Updates from the server -/

/-- One live or targeted version of a request; the result says whether it is newly pending. -/
def applyRequestUpdate (s : StateReducer) (request : Request) : StateReducer × Bool :=
  if s.requestsById[request.id]?.any (requestIsStale request) then (s, false)
  else
    let (s, isNewPending) := s.updatePendingTracking request
    let s :=
      { s with
        revision := s.revision + 1
        requestRevisions := s.requestRevisions.insert request.id (s.revision + 1)
        requestsById := s.requestsById.insert request.id request }
    (s.updateVisibleRequests, isNewPending)

def changedDuringFetch (s : StateReducer) (startedAtRevision : Nat) (id : String) : Bool :=
  decide (startedAtRevision < s.requestRevisions[id]?.getD 0)

/-- Whether a held version is kept against what a snapshot lists for its id. -/
def keptInSnapshot (s : StateReducer) (startedAtRevision : Nat) (id : String) (request : Request)
    (listed : Option Request) : Bool :=
  let snapshotIsNewer := listed.any (requestIsStale request)
  s.changedDuringFetch startedAtRevision id && !snapshotIsNewer

/-- The map after a snapshot: what the server listed, except where a held version changed while
    the snapshot was fetched and the listed one is not newer. -/
def mergeSnapshot (s : StateReducer) (requests : List Request) (startedAtRevision : Nat) :
    ExtTreeMap String Request :=
  s.requestsById.foldl
    (fun snapshot id request =>
      if s.keptInSnapshot startedAtRevision id request snapshot[id]? then
        snapshot.insert id request
      else snapshot)
    (ExtTreeMap.ofList (requests.map fun r => (r.id, r)))

/-- The second half of a snapshot: the new map, the caches rebuilt from it, and the pending
    requests to notify about. -/
def replaceRequests (s : StateReducer) (snapshot : ExtTreeMap String Request) :
    StateReducer × List Request :=
  let s :=
    { s with
      requestsById := snapshot
      requestRevisions := s.requestRevisions.filter fun id _ => snapshot.contains id }
  let pending := pendingRequests (OrdMap.values s.requestsById)
  let s :=
    { s with state := { s.state with pendingCountsByChannel := countPendingByChannel pending } }
  let notificationCandidates := s.notificationCandidatesAfterRefresh pending
  ((s.rememberPendingRequests pending).updateVisibleRequests.ensureSelectedRequest,
    notificationCandidates)

def applySnapshot (s : StateReducer) (currentUser : Option User) (devices : List UserDevice)
    (channels : List Channel) (requests : List Request) (startedAtRevision : Nat)
    (now : String) : StateReducer × List Request :=
  let s :=
    ensureSelectedChannel
      { s with
        state :=
          { s.state with currentUser := currentUser, devices := devices, channels := channels } }
  let (s, notificationCandidates) :=
    s.replaceRequests (s.mergeSnapshot requests startedAtRevision)
  ({ s with state := { s.state with lastError := none, lastSyncedAt := some now } },
    notificationCandidates)

def upsertChannel (s : StateReducer) (channel : Channel) : StateReducer :=
  let channels :=
    if s.state.channels.any (·.id == channel.id) then
      s.state.channels.replaceF fun existing =>
        if existing.id == channel.id then some channel else none
    else s.state.channels ++ [channel]
  { s with state := { s.state with channels := channels } }

def applyChannel (s : StateReducer) : Option Channel → StateReducer
  | some channel => s.upsertChannel channel
  | none => s

def applySyncEnvelope (s : StateReducer) (envelope : SyncEnvelope) :
    StateReducer × List Request :=
  let s := { s with state := { s.state with isSyncConnected := true } }
  let s := s.applyChannel envelope.payload.channel
  match envelope.payload.request with
  | none => (s, [])
  | some request =>
    let (s, isNewPending) := s.applyRequestUpdate request
    (s, if envelope.kind = syncKindCreated ∧ isNewPending then [request] else [])

/-! ## Connection state -/

def markSyncConnected (s : StateReducer) (connected : Bool) : StateReducer :=
  let phase :=
    if !connected && s.state.syncPhase != .revoked then .offline else s.state.syncPhase
  { s with state := { s.state with isSyncConnected := connected, syncPhase := phase } }

def setSyncPhase (s : StateReducer) (phase : SyncPhase) : StateReducer :=
  { s with state := { s.state with isSyncConnected := phase == .current, syncPhase := phase } }

def setNotificationDeliveryMode (s : StateReducer) (mode : NotificationDeliveryMode) :
    StateReducer :=
  { s with state := { s.state with notificationDeliveryMode := mode } }

def setError (s : StateReducer) (error : String) : StateReducer :=
  { s with state := { s.state with lastError := some error } }

end StateReducer

end Nod.Client
