import Nod.Proto.Request
import Std.Data.ExtTreeMap

/-
  What the desktop client keeps and receives (`nod-client-core/src/models.rs`,
  `nod-proto/src/preferences.rs`, `nod-proto/src/notification.rs`). Requests are the wire
  requests of `Nod.Proto`; an ordered map of the source is an extensional tree map.
-/

namespace Nod.Client

open Std Lib Nod.Proto

structure DeviceNotificationPreferences where
  hideContent : Bool
  mutedChannels : List String
  snoozedUntil : Option DateTime
  deriving DecidableEq

namespace DeviceNotificationPreferences

instance : Inhabited DeviceNotificationPreferences := ⟨⟨false, [], none⟩⟩

def allowsAlert (p : DeviceNotificationPreferences) (channelId : String) (now : DateTime) : Bool :=
  !p.mutedChannels.contains channelId &&
    match p.snoozedUntil with
    | none => true
    | some snoozeEnd => decide (snoozeEnd ≤ now)

end DeviceNotificationPreferences

inductive NotificationDeliveryMode where
  | push
  | websocket
  deriving DecidableEq

structure NotificationDelivery where
  mode : NotificationDeliveryMode
  deriving DecidableEq

structure Channel where
  id : String
  name : String
  emoji : String
  subscribed : Bool
  createdAt : DateTime
  deriving DecidableEq

structure ServerProfile where
  id : String
  credentialId : Option String
  name : String
  baseUrlString : String
  deviceName : String
  deviceId : Option String
  userId : Option String
  userName : Option String
  deriving DecidableEq

structure User where
  id : String
  name : String
  createdAt : DateTime
  updatedAt : DateTime
  deriving DecidableEq

/-- The part of a device that the inbox and its alerts read. -/
structure UserDevice where
  id : String
  userId : String
  name : String
  notificationSound : String
  notificationPreferences : DeviceNotificationPreferences
  isCurrent : Bool
  deriving DecidableEq

structure SyncPayload where
  request : Option Request
  channel : Option Channel
  notificationDelivery : Option NotificationDelivery
  extra : ExtTreeMap String Json

structure SyncEnvelope where
  kind : String
  notificationDelivery : Option NotificationDelivery
  payload : SyncPayload

inductive SyncPhase where
  | offline
  | connecting
  | reconciling
  | current
  | revoked
  deriving DecidableEq

structure ClientState where
  servers : List ServerProfile
  selectedServerId : Option String
  currentUser : Option User
  devices : List UserDevice
  channels : List Channel
  pendingCountsByChannel : ExtTreeMap String Nat
  requests : List Request
  selectedChannelId : Option String
  selectedRequestId : Option String
  notificationSound : String
  notificationDeliveryMode : NotificationDeliveryMode
  isRegistered : Bool
  isSyncConnected : Bool
  syncPhase : SyncPhase
  lastSyncedAt : Option String
  lastError : Option String

end Nod.Client
