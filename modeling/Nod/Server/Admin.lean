import Nod.Server.Maintenance

/-
  Everything around requests: opening the database (`db/connection.rs`), users, channels,
  subscriptions, issuer tokens, enrollment and device revocation.
  Proved: wherever such a call fails or ends, it has moved the database within `Quiet`: requests,
  decisions, nonces and the journal stand, and no user or device goes away.
-/

namespace Nod.Server

open Lib Nod.Proto

variable (P : Packages)

/-! ## Opening the database -/

/-- Rows from before salts get one. -/
def resalt (env : Env) (db : Db) : Option (Unit × Db) :=
  some ((), { db with
    requests := db.requests.update (fun r => r.recipientSalt = "")
      (fun r => { r with recipientSalt := env.salt r.id }) fun _ => rfl })

def seedNode (env : Env) (db : Db) : Option (Unit × Db) :=
  some ((), { db with
    integrationMeta := (db.integrationMeta.insertIgnore ("node_id", env.newId 0)).2 })

def seedChannel (now : String) (db : Db) : Option (Unit × Db) :=
  some ((), { db with channels := (db.channels.insertIgnore ⟨"default", "Default", now⟩).2 })

def seedUser (now : String) (db : Db) : Option (Unit × Db) :=
  some ((), { db with users := (db.users.insertIgnore ⟨"owner", "Owner", now, now, none⟩).2 })

/-- `INSERT OR IGNORE` of a subscription to the default channel. -/
def subscribeDefault (userId : String) (db : Db) : Option (Unit × Db) :=
  if db.subscriptions.get? (userId, "default") ≠ none then some ((), db)
  else if db.users.get? userId = none ∨ db.channels.get? "default" = none then none
  else some ((), { db with
    subscriptions := (db.subscriptions.insertIgnore ⟨userId, "default", true⟩).2 })

/-- The schema is idempotent: what is left of opening a database again is salting and seeding. -/
def connect (env : Env) : Sql Unit := do
  Prog.onPool (resalt env)
  Prog.onPool (seedNode env)
  Prog.onPool (seedChannel (env.nowString 0))
  Prog.onPool (seedUser (env.nowString 1))
  Prog.onPool (subscribeDefault "owner")

/-! ## Users -/

structure User where
  id : String
  name : String
  createdAt : DateTime
  updatedAt : DateTime
  deriving DecidableEq

def rowToUser (row : UserRow) : Except ApiError User := do
  let createdAt ← parseTime P row.createdAt
  let updatedAt ← parseTime P row.updatedAt
  pure ⟨row.id, row.name, createdAt, updatedAt⟩

/-- A new user, or a new name for a user that has not been deleted. -/
def upsertUser (id name now : String) (db : Db) : Option (Nat × Db) :=
  match db.users.get? id with
  | none => some (1, { db with users := (db.users.insertIgnore ⟨id, name, now, now, none⟩).2 })
  | some user =>
    if user.deletedAt = none then
      some (1, { db with
        users := db.users.update (fun u => u.id = id)
          (fun u => { u with name := name, updatedAt := now }) fun _ => rfl })
    else some (0, db)

def getUser (userId : String) : Sql User := do
  let user ← Prog.onPool fun db => some (db.users.get? userId, db)
  let user ← Prog.lift (orElse .notFound (user.filter fun u => u.deletedAt = none))
  Prog.lift (rowToUser P user)

def createUser (env : Env) (id name : String) : Sql User := do
  Prog.lift (validateId id "user id")
  Prog.lift (refuseIf (Text.trim name = "") (.badRequest "user name is required"))
  let inserted ← Prog.onPool (upsertUser id (Text.trim name) (env.nowString 0))
  Prog.lift (refuseIf (inserted = 0) (.conflict "deleted user IDs cannot be reused"))
  Prog.onPool (subscribeDefault id)
  getUser P id

def renameUser (userId name now : String) (db : Db) : Option (Nat × Db) :=
  let live := fun u : UserRow => u.id = userId && u.deletedAt = none
  some (db.users.rows.countP live,
    { db with
      users := db.users.update live (fun u => { u with name := name, updatedAt := now })
        fun _ => rfl })

def updateUser (env : Env) (userId name : String) : Sql User := do
  Prog.lift (validateId userId "user id")
  Prog.lift (refuseIf (Text.trim name = "") (.badRequest "user name is required"))
  let updated ← Prog.onPool (renameUser userId (Text.trim name) (env.nowString 0))
  Prog.lift (refuseIf (updated = 0) .notFound)
  getUser P userId

def activeDevices (userId : String) (db : Db) : Nat :=
  db.devices.rows.countP fun d => d.userId = userId && d.revokedAt = none

def markUserDeleted (userId now : String) (db : Db) : Option (Nat × Db) :=
  let live := fun u : UserRow => u.id = userId && u.deletedAt = none
  some (db.users.rows.countP live,
    { db with users := db.users.update live (fun u => { u with deletedAt := some now }) fun _ => rfl })

def deleteUser (env : Env) (userId : String) : Sql Unit := do
  Prog.lift (validateId userId "user id")
  Prog.beginTx
  let deviceCount ← Prog.query (activeDevices userId)
  Prog.lift (refuseIf (0 < deviceCount)
    (.conflict "cannot delete a user that still owns devices"))
  let deleted ← Prog.onTx (markUserDeleted userId (env.nowString 0))
  Prog.lift (refuseIf (deleted = 0) .notFound)
  Prog.commitTx

/-! ## Channels and subscriptions -/

structure Channel where
  id : String
  name : String
  subscribed : Bool
  createdAt : DateTime
  deriving DecidableEq

def rowToChannel (row : ChannelRow) (subscribed : Bool) : Except ApiError Channel := do
  let createdAt ← parseTime P row.createdAt
  pure ⟨row.id, row.name, subscribed, createdAt⟩

/-- A new channel, or a new name for one that is there. -/
def upsertChannel (id name now : String) (db : Db) : Option (Unit × Db) :=
  match db.channels.get? id with
  | none => some ((), { db with channels := (db.channels.insertIgnore ⟨id, name, now⟩).2 })
  | some _ =>
    some ((), { db with
      channels := db.channels.update (fun c => c.id = id) (fun c => { c with name := name })
        fun _ => rfl })

def getChannel (channelId : String) : Sql Channel := do
  let channel ← Prog.onPool fun db => some (db.channels.get? channelId, db)
  let channel ← Prog.lift (orElse .notFound channel)
  Prog.lift (rowToChannel P channel true)

def createChannel (env : Env) (id name : String) : Sql Channel := do
  Prog.lift (validateId id "channel id")
  Prog.lift (refuseIf (Text.trim name = "") (.badRequest "channel name is required"))
  Prog.onPool (upsertChannel id (Text.trim name) (env.nowString 0))
  getChannel P id

/-- A missing user or channel is an error. -/
def upsertSubscription (row : SubscriptionRow) (db : Db) : Option (Unit × Db) :=
  if db.users.get? row.userId = none ∨ db.channels.get? row.channelId = none then none
  else
    match db.subscriptions.get? row.key with
    | none => some ((), { db with subscriptions := (db.subscriptions.insertIgnore row).2 })
    | some _ =>
      some ((), { db with
        subscriptions := db.subscriptions.update (fun s => s.key = row.key)
          (fun s => { s with subscribed := row.subscribed }) fun _ => rfl })

def setUserSubscription (userId channelId : String) (subscribed : Bool) : Sql Unit := do
  let _ ← getUser P userId
  let _ ← getChannel P channelId
  Prog.onPool (upsertSubscription ⟨userId, channelId, subscribed⟩)

/-! ## Issuer tokens -/

def hashSecret (secret : String) : String := P.sha256Hex secret

/-- Token hashes are unique. -/
def insertIssuerToken (row : IssuerTokenRow) (db : Db) : Option (Unit × Db) :=
  if ∃ t ∈ db.issuerTokens.rows, t.tokenHash = row.tokenHash then none
  else (db.issuerTokens.insert? row).map fun issuerTokens =>
    ((), { db with issuerTokens := issuerTokens })

def createIssuerToken (env : Env) (name : String) (scopes : List String) : Sql String := do
  Prog.lift (refuseIf (Text.trim name = "") (.badRequest "token name is required"))
  let scopes := if scopes = [] then ["requests:write", "requests:read"] else scopes
  Prog.onPool (insertIssuerToken
    { id := env.newId 0, name := Text.trim name, tokenHash := hashSecret P env.token
      scopes, revokedAt := none })
  pure (env.newId 0)

def markIssuerTokenRevoked (id now : String) (db : Db) : Option (Nat × Db) :=
  let live := fun t : IssuerTokenRow => t.id = id && t.revokedAt = none
  some (db.issuerTokens.rows.countP live,
    { db with
      issuerTokens := db.issuerTokens.update live (fun t => { t with revokedAt := some now })
        fun _ => rfl })

def revokeIssuerToken (env : Env) (id : String) : Sql Unit := do
  let revoked ← Prog.onPool (markIssuerTokenRevoked id (env.nowString 0))
  Prog.lift (refuseIf (revoked = 0) .notFound)

/-! ## Devices -/

structure DeviceSigningKeyRequest where
  keyId : String
  algorithm : String
  publicKey : String
  deriving DecidableEq

structure EnrollDeviceRequest where
  code : String
  deviceName : String
  nativeAppId : Option String
  pushProvider : Option String
  pushToken : Option String
  signingKey : Option DeviceSigningKeyRequest
  deriving DecidableEq

/-- Only device keys authorize decisions, so every device enrolls with one. -/
def normalizedSigningKey (signingKey : Option DeviceSigningKeyRequest) :
    Except ApiError DeviceSigningKeyRequest := do
  let key ← orElse (.badRequest "signing_key is required to enroll a device") signingKey
  validateId (Text.trim key.keyId) "signing key id"
  refuseIf (key.algorithm ≠ decisionSigningAlgorithm)
    (ApiError.badRequest "unsupported signing key algorithm")
  refuseIf (Text.trim key.publicKey = "") (ApiError.badRequest "signing public key is required")
  validateDevicePublicKey P (Text.trim key.publicKey)
  pure { key with keyId := Text.trim key.keyId, publicKey := Text.trim key.publicKey }

def normalizedNativeAppId (value : Option String) : Except ApiError (Option String) :=
  match normalizedOptionalText value with
  | none => .ok none
  | some value => do
    refuseIf (255 < value.utf8ByteSize) (ApiError.badRequest "native app id is too long")
    refuseIf (value.toList.any Text.isWhitespace = true)
      (ApiError.badRequest "native app id must not contain whitespace")
    pure (some value)

structure PushRegistration where
  nativeAppId : Option String
  provider : Option String
  token : Option String

def normalizedPushRegistration (req : EnrollDeviceRequest) : Except ApiError PushRegistration := do
  let nativeAppId ← normalizedNativeAppId req.nativeAppId
  match normalizedOptionalText req.pushProvider, normalizedOptionalText req.pushToken with
  | some provider, some token => do
    refuseIf (nativeAppId = none)
      (ApiError.badRequest "native app id is required for push registration")
    pure ⟨nativeAppId, some provider, some token⟩
  | none, none => pure ⟨nativeAppId, none, none⟩
  | some _, none => .error (.badRequest "push token is required")
  | none, some _ => .error (.badRequest "push provider is required")

def insertEnrollmentCode (row : EnrollmentCodeRow) (db : Db) : Option (Unit × Db) :=
  if db.users.get? row.userId = none then none
  else (db.enrollmentCodes.insert? row).map fun enrollmentCodes =>
    ((), { db with enrollmentCodes := enrollmentCodes })

def createEnrollmentCode (env : Env) (userId : String) (expiresInSeconds : Option Int) :
    Sql String := do
  Prog.lift (validateId userId "user id")
  let _ ← getUser P userId
  let expiresAt := (env.now 0).plusSeconds (max 30 (min 3600 (expiresInSeconds.getD 600)))
  Prog.onPool (insertEnrollmentCode
    { codeHash := hashSecret P env.token, userId, expiresAt := expiresAt.toRfc3339Millis
      consumedAt := none })
  pure env.token

def consumeCode (codeHash now : String) (db : Db) : Option (Nat × Db) :=
  let open_ := fun c : EnrollmentCodeRow => c.codeHash = codeHash && c.consumedAt = none
  some (db.enrollmentCodes.rows.countP open_,
    { db with
      enrollmentCodes := db.enrollmentCodes.update open_
        (fun c => { c with consumedAt := some now }) fun _ => rfl })

/-- Token hashes are unique, and a push token needs an app. -/
def insertDevice (row : DeviceRow) (db : Db) : Option (Unit × Db) :=
  if db.users.get? row.userId = none ∨ (∃ d ∈ db.devices.rows, d.tokenHash = row.tokenHash) ∨
      (row.pushToken ≠ none ∧ ∀ app ∈ row.nativeAppId, sqlTrim app = "") then none
  else (db.devices.insert? row).map fun devices => ((), { db with devices := devices })

def enrolledDevice (env : Env) (userId : String) (push : PushRegistration)
    (key : DeviceSigningKeyRequest) : DeviceRow :=
  { id := env.newId 0, userId, nativeAppId := push.nativeAppId
    tokenHash := hashSecret P env.token, pushProvider := push.provider, pushToken := push.token
    signingKeyId := some key.keyId, signingKeyAlgorithm := some key.algorithm
    signingPublicKey := some key.publicKey, attestationVerifiedAt := none
    lastSeenAt := env.nowString 0, createdAt := env.nowString 0, revokedAt := none }

/-- `Device` leaves the times out; a row whose times do not parse is an error all the same. -/
def rowToDevice (row : DeviceRow) : Except ApiError Device := do
  let _ ← parseTime P row.lastSeenAt
  let _ ← parseTime P row.createdAt
  pure row.toDevice

/-- A revoked device is not found. -/
def getDevice (deviceId : String) : Sql Device := do
  let row ← Prog.onPool fun db => some (db.devices.get? deviceId, db)
  let row ← Prog.lift (orElse .notFound (row.filter fun d => d.revokedAt = none))
  Prog.lift (rowToDevice P row)

/-- The name of a user who has not been deleted. -/
def liveUserName (userId : String) (db : Db) : Option String :=
  ((db.users.get? userId).filter fun u => u.deletedAt = none).map UserRow.name

/-- The channels by name, each with whether the user is subscribed to it. -/
def channelsForUser (userId : String) (db : Db) : List (ChannelRow × Bool) :=
  (db.channels.rows.mergeSort fun a b => a.name ≤ b.name).map fun c =>
    (c, (db.subscriptions.get? (userId, c.id)).any SubscriptionRow.subscribed)

def listChannelsForUser (userId : String) : Sql (List Channel) := do
  let rows ← Prog.onPool fun db => some (channelsForUser userId db, db)
  Prog.lift (rows.mapM fun row => rowToChannel P row.1 row.2)

def listChannelsForDevice (deviceId : String) : Sql (List Channel) := do
  let device ← getDevice P deviceId
  listChannelsForUser P device.userId

structure UserDevice where
  id : String
  userId : String
  nativeAppId : Option String
  pushProvider : Option String
  hasPushToken : Bool
  hasSigningKey : Bool
  signingKeyId : Option String
  signingPublicKey : Option String
  attestationVerifiedAt : Option DateTime
  isCurrent : Bool
  lastSeenAt : DateTime
  createdAt : DateTime
  deriving DecidableEq

def rowToUserDevice (currentDeviceId : String) (row : DeviceRow) : Except ApiError UserDevice := do
  let attestationVerifiedAt ← parseOptionalTime P row.attestationVerifiedAt
  let lastSeenAt ← parseTime P row.lastSeenAt
  let createdAt ← parseTime P row.createdAt
  pure
    { id := row.id, userId := row.userId, nativeAppId := row.nativeAppId
      pushProvider := row.pushProvider, hasPushToken := row.pushToken.isSome
      hasSigningKey := row.signingPublicKey.isSome, signingKeyId := row.signingKeyId
      signingPublicKey := row.signingPublicKey, attestationVerifiedAt
      isCurrent := row.id = currentDeviceId, lastSeenAt, createdAt }

/-- The user's devices, the latest first. -/
def devicesOfUser (userId : String) (db : Db) : List DeviceRow :=
  (db.devices.rows.filter fun d => d.userId = userId && d.revokedAt = none).mergeSort
    fun a b => b.createdAt ≤ a.createdAt

def selectUserDevices (userId currentDeviceId : String) : Sql (List UserDevice) := do
  let rows ← Prog.onPool fun db => some (devicesOfUser userId db, db)
  Prog.lift (rows.mapM (rowToUserDevice P currentDeviceId))

def listUserDevices (userId currentDeviceId : String) : Sql (List UserDevice) := do
  let _ ← getUser P userId
  selectUserDevices P userId currentDeviceId

/-- What a redeemed code gave out. -/
structure Redeemed where
  deviceId : String
  userId : String
  userName : String
  token : String
  deriving DecidableEq

/-- The transaction of `enroll_device`, up to and with its commit. -/
def redeemCode (env : Env) (codeHash : String) (push : PushRegistration)
    (key : DeviceSigningKeyRequest) : Sql Redeemed := do
  Prog.beginTx
  let code ← Prog.query fun db => db.enrollmentCodes.get? codeHash
  let code ← Prog.lift (orElse .notFound code)
  let expiresAt ← Prog.lift (parseTime P code.expiresAt)
  Prog.lift (refuseIf (code.consumedAt ≠ none ∨ expiresAt ≤ env.now 0)
    (.conflict "enrollment code is expired or already used"))
  let userName ← Prog.query (liveUserName code.userId)
  let userName ← Prog.lift (orElse .notFound userName)
  let consumed ← Prog.onTx (consumeCode codeHash (env.nowString 0))
  Prog.lift (refuseIf (consumed = 0) (.conflict "enrollment code is expired or already used"))
  Prog.onTx (insertDevice (enrolledDevice P env code.userId push key))
  Prog.commitTx
  pure ⟨env.newId 0, code.userId, userName, env.token⟩

/-- What is checked of a request, and the registration and key it asks for, before the store is
    asked anything. -/
def checkedEnrollment (req : EnrollDeviceRequest) :
    Except ApiError (PushRegistration × DeviceSigningKeyRequest) := do
  refuseIf (Text.trim req.deviceName = "") (ApiError.badRequest "device name is required")
  let push ← normalizedPushRegistration req
  let key ← normalizedSigningKey P req.signingKey
  pure (push, key)

structure EnrollDeviceResponse where
  redeemed : Redeemed
  channels : List Channel
  devices : List UserDevice
  deriving DecidableEq

def enrollDevice (env : Env) (req : EnrollDeviceRequest) : Sql EnrollDeviceResponse := do
  let (push, key) ← Prog.lift (checkedEnrollment P req)
  let redeemed ← redeemCode P env (hashSecret P (Text.trim req.code)) push key
  let channels ← listChannelsForDevice P redeemed.deviceId
  let devices ← listUserDevices P redeemed.userId redeemed.deviceId
  pure ⟨redeemed, channels, devices⟩

/-- The attestation of an enrollment is kept beside its device. -/
def attestDevice (deviceId : String) (verifiedAt : Option String) (db : Db) : Option (Unit × Db) :=
  if db.devices.get? deviceId = none then none
  else some ((), { db with
    devices := db.devices.update (fun d => d.id = deviceId)
      (fun d => { d with attestationVerifiedAt := verifiedAt }) fun _ => rfl })

def recordDeviceAttestation (deviceId : String) (verifiedAt : Option DateTime) : Sql Unit :=
  Prog.onPool (attestDevice deviceId (verifiedAt.map DateTime.toRfc3339Millis))

/-- A device that was seen within the last 30 seconds is left alone. -/
def markDeviceSeen (deviceId cutoff now : String) (db : Db) : Option (Unit × Db) :=
  some ((), { db with
    devices := db.devices.update
      (fun d => d.id = deviceId && d.lastSeenAt < cutoff && d.revokedAt = none)
      (fun d => { d with lastSeenAt := now }) fun _ => rfl })

def touchDevice (env : Env) (deviceId : String) : Sql Unit :=
  Prog.onPool (markDeviceSeen deviceId ((env.now 0).plusSeconds (-30)).toRfc3339Millis
    (env.nowString 1))

/-- A revoked device keeps its row and its keys. -/
def markDeviceRevoked (p : DeviceRow → Bool) (now : String) (db : Db) : Option (Nat × Db) :=
  let live := fun d : DeviceRow => p d && d.revokedAt = none
  some (db.devices.rows.countP live,
    { db with
      devices := db.devices.update live
        (fun d => { d with revokedAt := some now, pushToken := none }) fun _ => rfl })

def deleteDevice (env : Env) (deviceId : String) : Sql Unit := do
  let revoked ← Prog.onPool (markDeviceRevoked (fun d => d.id = deviceId) (env.nowString 0))
  Prog.lift (refuseIf (revoked = 0) .notFound)

def revokeUserDevice (env : Env) (userId deviceId : String) : Sql Unit := do
  let revoked ← Prog.onPool
    (markDeviceRevoked (fun d => d.id = deviceId && d.userId = userId) (env.nowString 0))
  Prog.lift (refuseIf (revoked = 0) .notFound)

/-! ## Clearing and deleting a channel -/

/-- A missing user or channel is an error. -/
def upsertClear (row : ClearRow) (db : Db) : Option (Unit × Db) :=
  if db.users.get? row.userId = none ∨ db.channels.get? row.channelId = none then none
  else
    match db.clears.get? row.key with
    | none => some ((), { db with clears := (db.clears.insertIgnore row).2 })
    | some _ =>
      some ((), { db with
        clears := db.clears.update (fun c => c.key = row.key)
          (fun c => { c with clearedAt := row.clearedAt }) fun _ => rfl })

def clearChannel (env : Env) (deviceId channelId : String) : Sql Unit := do
  let device ← getDevice P deviceId
  let _ ← getChannel P channelId
  Prog.onPool (upsertClear ⟨device.userId, channelId, env.nowString 0⟩)

def inChannel (channelId : String) (r : RequestRow) : Bool := r.channelId = channelId

/-- `WHERE request_id IN (SELECT id FROM requests WHERE channel_id = ?)`. -/
def ofChannel (channelId : String) (db : Db) (requestId : String) : Bool :=
  (db.requests.get? requestId).any (inChannel channelId)

/-- A channel that still has requests stays. -/
def deleteChannelRow (channelId : String) (db : Db) : Option (Nat × Db) :=
  if ∃ r ∈ db.requests.rows, r.channelId = channelId then none
  else
    some (db.channels.rows.countP fun c => c.id = channelId,
      { db with channels := db.channels.delete fun c => c.id = channelId })

def deleteChannel (channelId : String) : Sql Unit := do
  Prog.lift (validateId channelId "channel id")
  Prog.beginTx
  Prog.onTx fun db => some ((), { db with
    userDecisions := db.userDecisions.delete fun r => ofChannel channelId db r.requestId })
  Prog.onTx fun db => some ((), { db with
    recipients := db.recipients.delete fun r => ofChannel channelId db r.requestId })
  Prog.onTx fun db => some ((), { db with
    options := db.options.delete fun r => ofChannel channelId db r.requestId })
  Prog.onTx fun db => some ((), db.deleteRequests (inChannel channelId))
  Prog.onTx fun db => some ((), { db with
    clears := db.clears.delete fun c => c.channelId = channelId })
  Prog.onTx fun db => some ((), { db with
    subscriptions := db.subscriptions.delete fun s => s.channelId = channelId })
  let deleted ← Prog.onTx (deleteChannelRow channelId)
  Prog.lift (refuseIf (deleted = 0) .notFound)
  Prog.commitTx

theorem transactional_deleteChannel (channelId : String) :
    Prog.Transactional (deleteChannel channelId) := by
  refine Prog.transactional_lift_bind fun _ _ => ?_
  refine Prog.transactional_begin ?_
  refine Prog.committing_bind (Prog.txOnly_onTx _) fun _ => ?_
  refine Prog.committing_bind (Prog.txOnly_onTx _) fun _ => ?_
  refine Prog.committing_bind (Prog.txOnly_onTx _) fun _ => ?_
  refine Prog.committing_bind (Prog.txOnly_onTx _) fun _ => ?_
  refine Prog.committing_bind (Prog.txOnly_onTx _) fun _ => ?_
  refine Prog.committing_bind (Prog.txOnly_onTx _) fun _ => ?_
  refine Prog.committing_bind (Prog.txOnly_onTx _) fun deleted => ?_
  refine Prog.committing_bind (Prog.txOnly_lift _) fun _ => ?_
  exact Prog.committing_commitTx _

/-! ## What stands -/

/-- A device as enrollment leaves it. -/
structure Keyed (d : DeviceRow) : Prop where
  keyId : ∃ keyId label, d.signingKeyId = some keyId ∧ validateId keyId label = .ok ()
  algorithm : d.signingKeyAlgorithm = some decisionSigningAlgorithm
  publicKey : ∃ key, d.signingPublicKey = some key ∧ Text.trim key ≠ "" ∧
    validateDevicePublicKey P key = .ok ()

/-- What the calls of this module keep. -/
structure Quiet (s s' : Db) : Prop where
  requests : (∀ r ∈ s.requests.rows, r.recipientSalt ≠ "") → s'.requests = s.requests
  options : s'.options = s.options
  recipients : s'.recipients = s.recipients
  userDecisions : s'.userDecisions = s.userDecisions
  nonces : s'.nonces = s.nonces
  origins : s'.origins = s.origins
  idempotency : s'.idempotency = s.idempotency
  pushDeliveries : s'.pushDeliveries = s.pushDeliveries
  eventSeq : s'.eventSeq = s.eventSeq
  events : s'.events = s.events
  callbacks : s'.callbacks = s.callbacks
  users : ∀ id, s.users.get? id ≠ none → s'.users.get? id ≠ none
  userIds : (∀ u ∈ s.users.rows, ∃ label, validateId u.id label = .ok ()) →
    ∀ u ∈ s'.users.rows, ∃ label, validateId u.id label = .ok ()
  devices : ∀ id d, s.devices.get? id = some d →
    ∃ d', s'.devices.get? id = some d' ∧ d'.toDevice = d.toDevice
  keyed : (∀ d ∈ s.devices.rows, Keyed P d) → ∀ d ∈ s'.devices.rows, Keyed P d
  node : ∀ n, s.integrationMeta.get? "node_id" = some n →
    s'.integrationMeta.get? "node_id" = some n
  channels : ∀ id, s.channels.get? id ≠ none → s'.channels.get? id ≠ none

theorem quiet_refl (s : Db) : Quiet P s s :=
  ⟨fun _ => rfl, rfl, rfl, rfl, rfl, rfl, rfl, rfl, rfl, rfl, rfl, fun _ h => h, fun h => h,
    fun _ d h => ⟨d, h, rfl⟩, fun h => h, fun _ h => h, fun _ h => h⟩

theorem quiet_trans {a b c : Db} (h : Quiet P a b) (k : Quiet P b c) : Quiet P a c where
  requests hs := by
    have hb := h.requests hs
    rw [k.requests (hb ▸ hs), hb]
  options := k.options.trans h.options
  recipients := k.recipients.trans h.recipients
  userDecisions := k.userDecisions.trans h.userDecisions
  nonces := k.nonces.trans h.nonces
  origins := k.origins.trans h.origins
  idempotency := k.idempotency.trans h.idempotency
  pushDeliveries := k.pushDeliveries.trans h.pushDeliveries
  eventSeq := k.eventSeq.trans h.eventSeq
  events := k.events.trans h.events
  callbacks := k.callbacks.trans h.callbacks
  users id hid := k.users id (h.users id hid)
  userIds hs := k.userIds (h.userIds hs)
  devices id d hd := by
    obtain ⟨d', hd', he⟩ := h.devices id d hd
    obtain ⟨d'', hd'', he'⟩ := k.devices id d' hd'
    exact ⟨d'', hd'', he'.trans he⟩
  keyed hs := k.keyed (h.keyed hs)
  node n hn := k.node n (h.node n hn)
  channels id hid := k.channels id (h.channels id hid)

/-- Tables that `Quiet` does not speak of. -/
theorem quiet_others (s : Db) (issuerTokens : Table IssuerTokenRow.id)
    (enrollmentCodes : Table EnrollmentCodeRow.codeHash)
    (subscriptions : Table SubscriptionRow.key) (clears : Table ClearRow.key) :
    Quiet P s { s with
      issuerTokens := issuerTokens, enrollmentCodes := enrollmentCodes
      subscriptions := subscriptions, clears := clears } :=
  ⟨fun _ => rfl, rfl, rfl, rfl, rfl, rfl, rfl, rfl, rfl, rfl, rfl, fun _ h => h, fun h => h,
    fun _ d h => ⟨d, h, rfl⟩, fun h => h, fun _ h => h, fun _ h => h⟩

theorem quiet_channels (s : Db) (channels : Table ChannelRow.id)
    (hkeep : ∀ id, s.channels.get? id ≠ none → channels.get? id ≠ none) :
    Quiet P s { s with channels := channels } :=
  ⟨fun _ => rfl, rfl, rfl, rfl, rfl, rfl, rfl, rfl, rfl, rfl, rfl, fun _ h => h, fun h => h,
    fun _ d h => ⟨d, h, rfl⟩, fun h => h, fun _ h => h, hkeep⟩

theorem quiet_users (s : Db) (users : Table UserRow.id)
    (hkeep : ∀ id, s.users.get? id ≠ none → users.get? id ≠ none)
    (hids : (∀ u ∈ s.users.rows, ∃ label, validateId u.id label = .ok ()) →
      ∀ u ∈ users.rows, ∃ label, validateId u.id label = .ok ()) :
    Quiet P s { s with users := users } :=
  ⟨fun _ => rfl, rfl, rfl, rfl, rfl, rfl, rfl, rfl, rfl, rfl, rfl, hkeep, hids,
    fun _ d h => ⟨d, h, rfl⟩, fun h => h, fun _ h => h, fun _ h => h⟩

theorem quiet_devices (s : Db) (devices : Table DeviceRow.id)
    (hkeep : ∀ id d, s.devices.get? id = some d →
      ∃ d', devices.get? id = some d' ∧ d'.toDevice = d.toDevice)
    (hkeyed : (∀ d ∈ s.devices.rows, Keyed P d) → ∀ d ∈ devices.rows, Keyed P d) :
    Quiet P s { s with devices := devices } :=
  ⟨fun _ => rfl, rfl, rfl, rfl, rfl, rfl, rfl, rfl, rfl, rfl, rfl, fun _ h => h, fun h => h,
    hkeep, hkeyed, fun _ h => h, fun _ h => h⟩

/-- A change of devices that keeps what authentication loads of them and their keys. -/
theorem quiet_updateDevices (s : Db) (p : DeviceRow → Bool) (f : DeviceRow → DeviceRow)
    (hf : ∀ d, (f d).id = d.id) (hdevice : ∀ d, (f d).toDevice = d.toDevice)
    (hkeyed : ∀ d, Keyed P d → Keyed P (f d)) :
    Quiet P s { s with devices := s.devices.update p f hf } := by
  refine quiet_devices P s _ (fun id d hd => ?_) fun hs d hd => ?_
  · rw [Table.get?_update, hd, Option.map_some]
    refine ⟨_, rfl, ?_⟩
    split
    · exact hdevice d
    · rfl
  · obtain ⟨e, he, rfl⟩ := List.mem_map.mp hd
    split
    · exact hkeyed e (hs e he)
    · exact hs e he

/-- A new user with a well-formed id. -/
theorem quiet_newUser (s : Db) {row : UserRow} (hid : ∃ label, validateId row.id label = .ok ()) :
    Quiet P s { s with users := (s.users.insertIgnore row).2 } := by
  refine quiet_users P s _ (fun k hk => ?_) fun hs u hu => ?_
  · obtain ⟨u, hu⟩ := Option.ne_none_iff_exists'.mp hk
    rw [Table.get?_insertIgnore hu]
    exact Option.some_ne_none u
  · rcases Table.mem_insertIgnore hu with hu | rfl
    · exact hs u hu
    · exact hid

/-- A change of users that keeps their ids. -/
theorem quiet_updateUsers (s : Db) (p : UserRow → Bool) (f : UserRow → UserRow)
    (hf : ∀ u, (f u).id = u.id) : Quiet P s { s with users := s.users.update p f hf } := by
  refine quiet_users P s _ (fun k hk => ?_) fun hs u hu => ?_
  · rw [Table.get?_update]
    exact fun hnone => hk (Option.map_eq_none_iff.mp hnone)
  · obtain ⟨v, hv, rfl⟩ := List.mem_map.mp hu
    have hid : (if p v then f v else v).id = v.id := by
      split
      · exact hf v
      · rfl
    rw [hid]
    exact hs v hv

/-! ### Statements -/

theorem quiet_resalt (env : Env) (s : Db) (u : Unit) (s' : Db) (h : resalt env s = some (u, s')) :
    Quiet P s s' := by
  cases h
  refine ⟨fun hs => ?_, rfl, rfl, rfl, rfl, rfl, rfl, rfl, rfl, rfl, rfl, fun _ h => h,
    fun h => h, fun _ d h => ⟨d, h, rfl⟩, fun h => h, fun _ h => h, fun _ h => h⟩
  apply Table.ext
  rw [Table.rows_update, List.map_congr_left (g := id), List.map_id]
  intro r hr
  rw [if_neg (by simpa using hs r hr)]
  rfl

theorem quiet_seedNode (env : Env) (s : Db) (u : Unit) (s' : Db)
    (h : seedNode env s = some (u, s')) : Quiet P s s' := by
  cases h
  exact ⟨fun _ => rfl, rfl, rfl, rfl, rfl, rfl, rfl, rfl, rfl, rfl, rfl, fun _ h => h, fun h => h,
    fun _ d h => ⟨d, h, rfl⟩, fun h => h, fun _ h => Table.get?_insertIgnore h, fun _ h => h⟩

theorem quiet_seedChannel (now : String) (s : Db) (u : Unit) (s' : Db)
    (h : seedChannel now s = some (u, s')) : Quiet P s s' := by
  cases h
  refine quiet_channels P s _ fun id hid => ?_
  obtain ⟨channel, hchannel⟩ := Option.ne_none_iff_exists'.mp hid
  rw [Table.get?_insertIgnore hchannel]
  exact Option.some_ne_none channel

theorem quiet_seedUser (now : String) (s : Db) (u : Unit) (s' : Db)
    (h : seedUser now s = some (u, s')) : Quiet P s s' := by
  cases h
  exact quiet_newUser P s ⟨"user id", (by decide : validateId "owner" "user id" = .ok ())⟩

theorem quiet_subscribeDefault (userId : String) (s : Db) (u : Unit) (s' : Db)
    (h : subscribeDefault userId s = some (u, s')) : Quiet P s s' := by
  unfold subscribeDefault at h
  split at h
  · cases h
    exact quiet_refl P s
  · split at h
    · cases h
    · cases h
      exact quiet_others P s _ _ _ _

theorem quiet_upsertUser {id label : String} (hid : validateId id label = .ok ())
    (name now : String) (s : Db) (n : Nat) (s' : Db) (h : upsertUser id name now s = some (n, s')) :
    Quiet P s s' := by
  unfold upsertUser at h
  split at h
  · cases h
    exact quiet_newUser P s ⟨label, hid⟩
  · split at h
    · cases h
      exact quiet_updateUsers P s _ _ _
    · cases h
      exact quiet_refl P s

theorem quiet_renameUser (userId name now : String) (s : Db) (n : Nat) (s' : Db)
    (h : renameUser userId name now s = some (n, s')) : Quiet P s s' := by
  cases h
  exact quiet_updateUsers P s _ _ _

theorem quiet_markUserDeleted (userId now : String) (s : Db) (n : Nat) (s' : Db)
    (h : markUserDeleted userId now s = some (n, s')) : Quiet P s s' := by
  cases h
  exact quiet_updateUsers P s _ _ _

theorem quiet_upsertChannel (id name now : String) (s : Db) (u : Unit) (s' : Db)
    (h : upsertChannel id name now s = some (u, s')) : Quiet P s s' := by
  unfold upsertChannel at h
  split at h
  · rename_i hfree
    cases h
    refine quiet_channels P s _ fun k hk => ?_
    obtain ⟨channel, hchannel⟩ := Option.ne_none_iff_exists'.mp hk
    rw [Table.get?_insertIgnore hchannel]
    exact Option.some_ne_none channel
  · cases h
    exact quiet_channels P s _ fun k hk => Table.get?_update_ne_none.mpr hk

theorem quiet_upsertSubscription (row : SubscriptionRow) (s : Db) (u : Unit) (s' : Db)
    (h : upsertSubscription row s = some (u, s')) : Quiet P s s' := by
  unfold upsertSubscription at h
  split at h
  · cases h
  · split at h
    · cases h
      exact quiet_others P s _ _ _ _
    · cases h
      exact quiet_others P s _ _ _ _

theorem quiet_upsertClear (row : ClearRow) (s : Db) (u : Unit) (s' : Db)
    (h : upsertClear row s = some (u, s')) : Quiet P s s' := by
  unfold upsertClear at h
  split at h
  · cases h
  · split at h
    · cases h
      exact quiet_others P s _ _ _ _
    · cases h
      exact quiet_others P s _ _ _ _

theorem quiet_insertIssuerToken (row : IssuerTokenRow) (s : Db) (u : Unit) (s' : Db)
    (h : insertIssuerToken row s = some (u, s')) : Quiet P s s' := by
  unfold insertIssuerToken at h
  split at h
  · cases h
  · obtain ⟨t, -, hdb⟩ := Option.map_eq_some_iff.mp h
    cases hdb
    exact quiet_others P s _ _ _ _

theorem quiet_markIssuerTokenRevoked (id now : String) (s : Db) (n : Nat) (s' : Db)
    (h : markIssuerTokenRevoked id now s = some (n, s')) : Quiet P s s' := by
  cases h
  exact quiet_others P s _ _ _ _

theorem quiet_insertEnrollmentCode (row : EnrollmentCodeRow) (s : Db) (u : Unit) (s' : Db)
    (h : insertEnrollmentCode row s = some (u, s')) : Quiet P s s' := by
  unfold insertEnrollmentCode at h
  split at h
  · cases h
  · obtain ⟨t, -, hdb⟩ := Option.map_eq_some_iff.mp h
    cases hdb
    exact quiet_others P s _ _ _ _

theorem quiet_consumeCode (codeHash now : String) (s : Db) (n : Nat) (s' : Db)
    (h : consumeCode codeHash now s = some (n, s')) : Quiet P s s' := by
  cases h
  exact quiet_others P s _ _ _ _

theorem quiet_insertDevice {row : DeviceRow} (hrow : Keyed P row) (s : Db) (u : Unit) (s' : Db)
    (h : insertDevice row s = some (u, s')) : Quiet P s s' := by
  unfold insertDevice at h
  split at h
  · cases h
  · obtain ⟨t, ht, hdb⟩ := Option.map_eq_some_iff.mp h
    cases hdb
    refine quiet_devices P s t (fun id d hd => ?_) fun hs d hd => ?_
    · have hne : row.id ≠ id := by
        rintro rfl
        rw [(Table.insert?_eq_some.mp ht).1] at hd
        cases hd
      exact ⟨d, by rw [Table.get?_insert? ht, if_neg hne, hd], rfl⟩
    · rw [(Table.insert?_eq_some.mp ht).2, List.mem_append, List.mem_singleton] at hd
      rcases hd with hd | rfl
      · exact hs d hd
      · exact hrow

theorem quiet_markDeviceRevoked (p : DeviceRow → Bool) (now : String) (s : Db) (n : Nat) (s' : Db)
    (h : markDeviceRevoked p now s = some (n, s')) : Quiet P s s' := by
  cases h
  exact quiet_updateDevices P s _ _ _ (fun _ => rfl)
    fun _ hkeyed => ⟨hkeyed.keyId, hkeyed.algorithm, hkeyed.publicKey⟩

theorem quiet_attestDevice (deviceId : String) (verifiedAt : Option String) (s : Db) (u : Unit)
    (s' : Db) (h : attestDevice deviceId verifiedAt s = some (u, s')) : Quiet P s s' := by
  unfold attestDevice at h
  split at h
  · cases h
  · cases h
    exact quiet_updateDevices P s _ _ _ (fun _ => rfl)
      fun _ hkeyed => ⟨hkeyed.keyId, hkeyed.algorithm, hkeyed.publicKey⟩

theorem quiet_markDeviceSeen (deviceId cutoff now : String) (s : Db) (u : Unit) (s' : Db)
    (h : markDeviceSeen deviceId cutoff now s = some (u, s')) : Quiet P s s' := by
  cases h
  exact quiet_updateDevices P s _ _ _ (fun _ => rfl)
    fun _ hkeyed => ⟨hkeyed.keyId, hkeyed.algorithm, hkeyed.publicKey⟩

theorem keyed_enrolledDevice {env : Env} {userId : String} {push : PushRegistration}
    {signingKey : Option DeviceSigningKeyRequest} {key : DeviceSigningKeyRequest}
    (h : normalizedSigningKey P signingKey = .ok key) :
    Keyed P (enrolledDevice P env userId push key) := by
  simp only [normalizedSigningKey, bind_eq_ok, refuseIf_eq_ok, not_not, pure_eq_ok] at h
  obtain ⟨k, -, _, hid, _, halg, _, hne, _, hpub, rfl⟩ := h
  refine ⟨⟨_, _, rfl, hid⟩, congrArg some halg, ⟨_, rfl, ?_, hpub⟩⟩
  rw [Text.trim_trim]
  exact hne

/-- What one statement of an administrative call does, other than redeeming a code. -/
inductive AdminStmt : Db → Db → Prop
  | read (s : Db) : AdminStmt s s
  | resalted (env : Env) {s s' : Db} {u : Unit} (h : resalt env s = some (u, s')) : AdminStmt s s'
  | nodeSeeded (env : Env) {s s' : Db} {u : Unit} (h : seedNode env s = some (u, s')) : AdminStmt s s'
  | channelSeeded (now : String) {s s' : Db} {u : Unit} (h : seedChannel now s = some (u, s')) :
    AdminStmt s s'
  | userSeeded (now : String) {s s' : Db} {u : Unit} (h : seedUser now s = some (u, s')) :
    AdminStmt s s'
  | subscribed (userId : String) {s s' : Db} {u : Unit} (h : subscribeDefault userId s = some (u, s')) :
    AdminStmt s s'
  | userUpserted {id label : String} (hid : validateId id label = .ok ()) (name now : String)
    {s s' : Db} {n : Nat} (h : upsertUser id name now s = some (n, s')) : AdminStmt s s'
  | userRenamed (userId name now : String) {s s' : Db} {n : Nat}
    (h : renameUser userId name now s = some (n, s')) : AdminStmt s s'
  | userDeleted (userId now : String) {s s' : Db} {n : Nat}
    (h : markUserDeleted userId now s = some (n, s')) : AdminStmt s s'
  | channelUpserted (id name now : String) {s s' : Db} {u : Unit}
    (h : upsertChannel id name now s = some (u, s')) : AdminStmt s s'
  | subscriptionUpserted (row : SubscriptionRow) {s s' : Db} {u : Unit}
    (h : upsertSubscription row s = some (u, s')) : AdminStmt s s'
  | clearUpserted (row : ClearRow) {s s' : Db} {u : Unit} (h : upsertClear row s = some (u, s')) :
    AdminStmt s s'
  | tokenInserted (row : IssuerTokenRow) {s s' : Db} {u : Unit}
    (h : insertIssuerToken row s = some (u, s')) : AdminStmt s s'
  | tokenRevoked (id now : String) {s s' : Db} {n : Nat}
    (h : markIssuerTokenRevoked id now s = some (n, s')) : AdminStmt s s'
  | codeInserted (row : EnrollmentCodeRow) {s s' : Db} {u : Unit}
    (h : insertEnrollmentCode row s = some (u, s')) : AdminStmt s s'
  | deviceRevoked (p : DeviceRow → Bool) (now : String) {s s' : Db} {n : Nat}
    (h : markDeviceRevoked p now s = some (n, s')) : AdminStmt s s'
  | deviceAttested (deviceId : String) (verifiedAt : Option String) {s s' : Db} {u : Unit}
    (h : attestDevice deviceId verifiedAt s = some (u, s')) : AdminStmt s s'
  | deviceSeen (deviceId cutoff now : String) {s s' : Db} {u : Unit}
    (h : markDeviceSeen deviceId cutoff now s = some (u, s')) : AdminStmt s s'

theorem quiet_stmt {s s' : Db} (h : AdminStmt s s') : Quiet P s s' := by
  cases h with
  | read => exact quiet_refl P s
  | resalted env h => exact quiet_resalt P env s _ s' h
  | nodeSeeded env h => exact quiet_seedNode P env s _ s' h
  | channelSeeded now h => exact quiet_seedChannel P now s _ s' h
  | userSeeded now h => exact quiet_seedUser P now s _ s' h
  | subscribed userId h => exact quiet_subscribeDefault P userId s _ s' h
  | userUpserted hid name now h => exact quiet_upsertUser P hid name now s _ s' h
  | userRenamed userId name now h => exact quiet_renameUser P userId name now s _ s' h
  | userDeleted userId now h => exact quiet_markUserDeleted P userId now s _ s' h
  | channelUpserted id name now h => exact quiet_upsertChannel P id name now s _ s' h
  | subscriptionUpserted row h => exact quiet_upsertSubscription P row s _ s' h
  | clearUpserted row h => exact quiet_upsertClear P row s _ s' h
  | tokenInserted row h => exact quiet_insertIssuerToken P row s _ s' h
  | tokenRevoked id now h => exact quiet_markIssuerTokenRevoked P id now s _ s' h
  | codeInserted row h => exact quiet_insertEnrollmentCode P row s _ s' h
  | deviceRevoked p now h => exact quiet_markDeviceRevoked P p now s _ s' h
  | deviceAttested deviceId verifiedAt h => exact quiet_attestDevice P deviceId verifiedAt s _ s' h
  | deviceSeen deviceId cutoff now h => exact quiet_markDeviceSeen P deviceId cutoff now s _ s' h

/-! ### Calls -/

theorem within_poolRead {α : Type} (f : Db → α) :
    Prog.Within AdminStmt false false (Prog.onPool fun db => some (f db, db) : Sql α) :=
  Prog.within_onPool fun s _ s' h => by
    cases h
    exact .read s

theorem within_txRead {α : Type} (f : Db → α) :
    Prog.Within AdminStmt true true (Prog.query f : Sql α) :=
  Prog.within_onTx fun s _ s' h => by
    cases h
    exact .read s

theorem within_getUser (userId : String) : Prog.Within AdminStmt false false (getUser P userId) := by
  refine Prog.within_bind (within_poolRead _) fun _ => ?_
  exact Prog.within_bind (Prog.within_lift _) fun _ => Prog.within_lift _

theorem within_getChannel (channelId : String) :
    Prog.Within AdminStmt false false (getChannel P channelId) := by
  refine Prog.within_bind (within_poolRead _) fun _ => ?_
  exact Prog.within_bind (Prog.within_lift _) fun _ => Prog.within_lift _

theorem within_connect (env : Env) : Prog.Within AdminStmt false false (connect env) := by
  refine Prog.within_bind (Prog.within_onPool fun _ _ _ h => .resalted env h) fun _ => ?_
  refine Prog.within_bind (Prog.within_onPool fun _ _ _ h => .nodeSeeded env h) fun _ => ?_
  refine Prog.within_bind (Prog.within_onPool fun _ _ _ h => .channelSeeded _ h) fun _ => ?_
  refine Prog.within_bind (Prog.within_onPool fun _ _ _ h => .userSeeded _ h) fun _ => ?_
  exact Prog.within_onPool fun _ _ _ h => .subscribed _ h

theorem within_createUser (env : Env) (id name : String) :
    Prog.Within AdminStmt false false (createUser P env id name) := by
  refine Prog.within_lift_bind fun _ hid => ?_
  refine Prog.within_bind (Prog.within_lift _) fun _ => ?_
  refine Prog.within_bind (Prog.within_onPool fun _ _ _ h => .userUpserted hid _ _ h) fun _ => ?_
  refine Prog.within_bind (Prog.within_lift _) fun _ => ?_
  refine Prog.within_bind (Prog.within_onPool fun _ _ _ h => .subscribed _ h) fun _ => ?_
  exact within_getUser P id

theorem within_updateUser (env : Env) (userId name : String) :
    Prog.Within AdminStmt false false (updateUser P env userId name) := by
  refine Prog.within_bind (Prog.within_lift _) fun _ => ?_
  refine Prog.within_bind (Prog.within_lift _) fun _ => ?_
  refine Prog.within_bind (Prog.within_onPool fun _ _ _ h => .userRenamed _ _ _ h) fun _ => ?_
  refine Prog.within_bind (Prog.within_lift _) fun _ => ?_
  exact within_getUser P userId

theorem within_deleteUser (env : Env) (userId : String) :
    Prog.Within AdminStmt false false (deleteUser env userId) := by
  refine Prog.within_bind (Prog.within_lift _) fun _ => ?_
  refine Prog.within_bind Prog.within_beginTx fun _ => ?_
  refine Prog.within_bind (within_txRead _) fun _ => ?_
  refine Prog.within_bind (Prog.within_lift _) fun _ => ?_
  refine Prog.within_bind (Prog.within_onTx fun _ _ _ h => .userDeleted _ _ h) fun _ => ?_
  refine Prog.within_bind (Prog.within_lift _) fun _ => ?_
  exact Prog.within_commitTx

theorem within_createChannel (env : Env) (id name : String) :
    Prog.Within AdminStmt false false (createChannel P env id name) := by
  refine Prog.within_bind (Prog.within_lift _) fun _ => ?_
  refine Prog.within_bind (Prog.within_lift _) fun _ => ?_
  refine Prog.within_bind (Prog.within_onPool fun _ _ _ h => .channelUpserted _ _ _ h) fun _ => ?_
  exact within_getChannel P id

theorem within_setUserSubscription (userId channelId : String) (subscribed : Bool) :
    Prog.Within AdminStmt false false (setUserSubscription P userId channelId subscribed) := by
  refine Prog.within_bind (within_getUser P _) fun _ => ?_
  refine Prog.within_bind (within_getChannel P _) fun _ => ?_
  exact Prog.within_onPool fun _ _ _ h => .subscriptionUpserted _ h

theorem within_getDevice (deviceId : String) :
    Prog.Within AdminStmt false false (getDevice P deviceId) := by
  refine Prog.within_bind (within_poolRead _) fun _ => ?_
  exact Prog.within_bind (Prog.within_lift _) fun _ => Prog.within_lift _

theorem within_clearChannel (env : Env) (deviceId channelId : String) :
    Prog.Within AdminStmt false false (clearChannel P env deviceId channelId) := by
  refine Prog.within_bind (within_getDevice P _) fun _ => ?_
  refine Prog.within_bind (within_getChannel P _) fun _ => ?_
  exact Prog.within_onPool fun _ _ _ h => .clearUpserted _ h

theorem within_createIssuerToken (env : Env) (name : String) (scopes : List String) :
    Prog.Within AdminStmt false false (createIssuerToken P env name scopes) := by
  refine Prog.within_bind (Prog.within_lift _) fun _ => ?_
  refine Prog.within_bind (Prog.within_onPool fun _ _ _ h => .tokenInserted _ h) fun _ => ?_
  exact Prog.within_pure _

theorem within_revokeIssuerToken (env : Env) (id : String) :
    Prog.Within AdminStmt false false (revokeIssuerToken env id) :=
  Prog.within_bind (Prog.within_onPool fun _ _ _ h => .tokenRevoked _ _ h) fun _ => Prog.within_lift _

theorem within_createEnrollmentCode (env : Env) (userId : String)
    (expiresInSeconds : Option Int) :
    Prog.Within AdminStmt false false (createEnrollmentCode P env userId expiresInSeconds) := by
  refine Prog.within_bind (Prog.within_lift _) fun _ => ?_
  refine Prog.within_bind (within_getUser P _) fun _ => ?_
  refine Prog.within_bind (Prog.within_onPool fun _ _ _ h => .codeInserted _ h) fun _ => ?_
  exact Prog.within_pure _

theorem within_deleteDevice (env : Env) (deviceId : String) :
    Prog.Within AdminStmt false false (deleteDevice env deviceId) :=
  Prog.within_bind (Prog.within_onPool fun _ _ _ h => .deviceRevoked _ _ h) fun _ => Prog.within_lift _

theorem within_revokeUserDevice (env : Env) (userId deviceId : String) :
    Prog.Within AdminStmt false false (revokeUserDevice env userId deviceId) :=
  Prog.within_bind (Prog.within_onPool fun _ _ _ h => .deviceRevoked _ _ h) fun _ => Prog.within_lift _

theorem within_recordDeviceAttestation (deviceId : String) (verifiedAt : Option DateTime) :
    Prog.Within AdminStmt false false (recordDeviceAttestation deviceId verifiedAt) :=
  Prog.within_onPool fun _ _ _ h => .deviceAttested _ _ h

theorem within_touchDevice (env : Env) (deviceId : String) :
    Prog.Within AdminStmt false false (touchDevice env deviceId) :=
  Prog.within_onPool fun _ _ _ h => .deviceSeen _ _ _ h

theorem within_listChannelsForDevice (deviceId : String) :
    Prog.Within AdminStmt false false (listChannelsForDevice P deviceId) := by
  refine Prog.within_bind (within_getDevice P _) fun _ => ?_
  exact Prog.within_bind (within_poolRead _) fun _ => Prog.within_lift _

theorem within_listUserDevices (userId currentDeviceId : String) :
    Prog.Within AdminStmt false false (listUserDevices P userId currentDeviceId) := by
  refine Prog.within_bind (within_getUser P _) fun _ => ?_
  exact Prog.within_bind (within_poolRead _) fun _ => Prog.within_lift _

/-! ### Enrolling a device -/

theorem within_redeemCode {env : Env} {codeHash : String} {push : PushRegistration}
    {signingKey : Option DeviceSigningKeyRequest} {key : DeviceSigningKeyRequest}
    (hkey : normalizedSigningKey P signingKey = .ok key) :
    Prog.Within (Quiet P) false false (redeemCode P env codeHash push key) := by
  have hread : ∀ {α : Type} (f : Db → α), Prog.Within (Quiet P) true true (Prog.query f : Sql α) :=
    fun f => (within_txRead f).mono fun _ _ => quiet_stmt P
  refine Prog.within_bind Prog.within_beginTx fun _ => ?_
  refine Prog.within_bind (hread _) fun _ => ?_
  refine Prog.within_bind (Prog.within_lift _) fun code => ?_
  refine Prog.within_bind (Prog.within_lift _) fun expiresAt => ?_
  refine Prog.within_bind (Prog.within_lift _) fun _ => ?_
  refine Prog.within_bind (hread _) fun _ => ?_
  refine Prog.within_bind (Prog.within_lift _) fun _ => ?_
  refine Prog.within_bind (Prog.within_onTx (quiet_consumeCode P _ _)) fun _ => ?_
  refine Prog.within_bind (Prog.within_lift _) fun _ => ?_
  refine Prog.within_bind
    (Prog.within_onTx (quiet_insertDevice P (keyed_enrolledDevice P hkey))) fun _ => ?_
  refine Prog.within_bind Prog.within_commitTx fun _ => ?_
  exact Prog.within_pure _

/-- A checked request has a signing key that was normalized. -/
theorem checkedEnrollment_eq_ok {req : EnrollDeviceRequest} {push : PushRegistration}
    {key : DeviceSigningKeyRequest} (h : checkedEnrollment P req = .ok (push, key)) :
    normalizedSigningKey P req.signingKey = .ok key := by
  simp only [checkedEnrollment, bind_eq_ok, refuseIf_eq_ok, pure_eq_ok, Prod.mk.injEq] at h
  obtain ⟨_, -, _, -, key', hkey, -, rfl⟩ := h
  exact hkey

theorem within_enrollDevice (env : Env) (req : EnrollDeviceRequest) :
    Prog.Within (Quiet P) false false (enrollDevice P env req) := by
  refine Prog.within_lift_bind fun checked hchecked => ?_
  obtain ⟨push, key⟩ := checked
  refine Prog.within_bind (within_redeemCode P (checkedEnrollment_eq_ok P hchecked)) fun _ => ?_
  refine Prog.within_bind ((within_listChannelsForDevice P _).mono fun _ _ => quiet_stmt P)
    fun _ => ?_
  refine Prog.within_bind ((within_listUserDevices P _ _).mono fun _ _ => quiet_stmt P) fun _ => ?_
  exact Prog.within_pure _

/-! ## All of them -/

inductive AdminOp where
  | connect (env : Env)
  | createUser (env : Env) (id name : String)
  | updateUser (env : Env) (userId name : String)
  | deleteUser (env : Env) (userId : String)
  | createChannel (env : Env) (id name : String)
  | setUserSubscription (userId channelId : String) (subscribed : Bool)
  | clearChannel (env : Env) (deviceId channelId : String)
  | createIssuerToken (env : Env) (name : String) (scopes : List String)
  | revokeIssuerToken (env : Env) (id : String)
  | createEnrollmentCode (env : Env) (userId : String) (expiresInSeconds : Option Int)
  | enrollDevice (env : Env) (req : EnrollDeviceRequest)
  | recordDeviceAttestation (deviceId : String) (verifiedAt : Option DateTime)
  | touchDevice (env : Env) (deviceId : String)
  | deleteDevice (env : Env) (deviceId : String)
  | revokeUserDevice (env : Env) (userId deviceId : String)

def AdminOp.Result : AdminOp → Type
  | connect _ => Unit
  | createUser _ _ _ => User
  | updateUser _ _ _ => User
  | deleteUser _ _ => Unit
  | createChannel _ _ _ => Channel
  | setUserSubscription _ _ _ => Unit
  | clearChannel _ _ _ => Unit
  | createIssuerToken _ _ _ => String
  | revokeIssuerToken _ _ => Unit
  | createEnrollmentCode _ _ _ => String
  | enrollDevice _ _ => EnrollDeviceResponse
  | recordDeviceAttestation _ _ => Unit
  | touchDevice _ _ => Unit
  | deleteDevice _ _ => Unit
  | revokeUserDevice _ _ _ => Unit

def AdminOp.prog : (op : AdminOp) → Sql op.Result
  | connect env => Server.connect env
  | createUser env id name => Server.createUser P env id name
  | updateUser env userId name => Server.updateUser P env userId name
  | deleteUser env userId => Server.deleteUser env userId
  | createChannel env id name => Server.createChannel P env id name
  | setUserSubscription userId channelId subscribed =>
    Server.setUserSubscription P userId channelId subscribed
  | clearChannel env deviceId channelId => Server.clearChannel P env deviceId channelId
  | createIssuerToken env name scopes => Server.createIssuerToken P env name scopes
  | revokeIssuerToken env id => Server.revokeIssuerToken env id
  | createEnrollmentCode env userId expires => Server.createEnrollmentCode P env userId expires
  | enrollDevice env req => Server.enrollDevice P env req
  | recordDeviceAttestation deviceId verifiedAt => Server.recordDeviceAttestation deviceId verifiedAt
  | touchDevice env deviceId => Server.touchDevice env deviceId
  | deleteDevice env deviceId => Server.deleteDevice env deviceId
  | revokeUserDevice env userId deviceId => Server.revokeUserDevice env userId deviceId

def AdminOp.isEnroll : AdminOp → Bool
  | enrollDevice _ _ => true
  | _ => false

theorem within_admin {op : AdminOp} (h : op.isEnroll = false) :
    Prog.Within AdminStmt false false (op.prog P) := by
  cases op with
  | connect env => exact within_connect env
  | createUser env id name => exact within_createUser P env id name
  | updateUser env userId name => exact within_updateUser P env userId name
  | deleteUser env userId => exact within_deleteUser env userId
  | createChannel env id name => exact within_createChannel P env id name
  | setUserSubscription userId channelId subscribed =>
    exact within_setUserSubscription P userId channelId subscribed
  | clearChannel env deviceId channelId => exact within_clearChannel P env deviceId channelId
  | createIssuerToken env name scopes => exact within_createIssuerToken P env name scopes
  | revokeIssuerToken env id => exact within_revokeIssuerToken env id
  | createEnrollmentCode env userId expires => exact within_createEnrollmentCode P env userId expires
  | enrollDevice env req => cases h
  | recordDeviceAttestation deviceId verifiedAt =>
    exact within_recordDeviceAttestation deviceId verifiedAt
  | touchDevice env deviceId => exact within_touchDevice env deviceId
  | deleteDevice env deviceId => exact within_deleteDevice env deviceId
  | revokeUserDevice env userId deviceId => exact within_revokeUserDevice env userId deviceId

/-- Wherever such a call fails or ends, it has moved the database within `Quiet`. -/
theorem quiet_admin (op : AdminOp) (faults : List Bool) (s : Db) :
    Quiet P s (Prog.exec databaseError (op.prog P) faults s).2 := by
  have hwithin : Prog.Within (Quiet P) false false (op.prog P) := by
    cases hop : op.isEnroll with
    | false => exact (within_admin P hop).mono fun _ _ => quiet_stmt P
    | true =>
      cases op with
      | enrollDevice env req => exact within_enrollDevice P env req
      | _ => cases hop
  exact Prog.exec_within (quiet_refl P) (fun h k => quiet_trans P h k) hwithin rfl

end Nod.Server
