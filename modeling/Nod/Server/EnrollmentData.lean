import Nod.Server.Admin
import Nod.Server.SignedPayloads

/-
  The text an attested enrollment is verified against: one line a field, built by the server from
  the request and by NodKit from what it sends. The push provider is free text and stands in the
  middle.
  Proved: on requests that pass enrollment's validation the text names every field enrollment
  keeps, read from both ends, up to the hashes of code, device name, push token and public key;
  the two builders agree on them byte for byte (`enrollment_data`).
-/

namespace Nod.Server

open Lib Nod.Proto

variable (P : Packages)

/-! ## The server's text -/

inductive DevicePlatform
  | ios
  | macos
  | watchos
  | windows
  | linux
  | unknown
  deriving DecidableEq

def DevicePlatform.asStr : DevicePlatform → String
  | .ios => "ios"
  | .macos => "macos"
  | .watchos => "watchos"
  | .windows => "windows"
  | .linux => "linux"
  | .unknown => "unknown"

def appleAppAttestProvider : String := "apple_app_attest"

/-- An enrollment request with the platform it names and the attestation key id beside it. -/
structure AttestedEnrollment extends EnrollDeviceRequest where
  platform : DevicePlatform
  appAttestKeyId : String

/-- What is signed for an absent or blank field is the fallback. -/
def filledOr (fallback : String) (value : Option String) : String :=
  (value.filter (· ≠ "")).getD fallback

def enrollmentClientData (E : Externals) (req : AttestedEnrollment) : String :=
  let signingKeyId := filledOr "" (req.signingKey.map fun key => Text.trim key.keyId)
  let signingAlgorithm :=
    filledOr decisionSigningAlgorithm (req.signingKey.map fun key => key.algorithm)
  let signingPublicKeyHash :=
    (req.signingKey.map fun key => E.sha256Hex (Text.trim key.publicKey)).getD ""
  "nod-enrollment-v1\n" ++
  "code_sha256:" ++ E.sha256Hex (Text.trim req.code) ++ "\n" ++
  "device_name_sha256:" ++ E.sha256Hex (Text.trim req.deviceName) ++ "\n" ++
  "platform:" ++ req.platform.asStr ++ "\n" ++
  "push_provider:" ++ (normalizedOptionalText req.pushProvider).getD "" ++ "\n" ++
  "push_token_sha256:" ++
    ((normalizedOptionalText req.pushToken).map E.sha256Hex).getD "" ++ "\n" ++
  "signing_key_id:" ++ signingKeyId ++ "\n" ++
  "signing_key_algorithm:" ++ signingAlgorithm ++ "\n" ++
  "signing_public_key_sha256:" ++ signingPublicKeyHash ++ "\n" ++
  "attestation_provider:" ++ appleAppAttestProvider ++ "\n" ++
  "attestation_key_id:" ++ Text.trim req.appAttestKeyId ++ "\n"

/-! ## NodKit's text -/

namespace NodKit

def nilIfEmpty (s : String) : Option String := if s = "" then none else some s

def normalized (value : Option String) : Option String :=
  value.bind fun s => nilIfEmpty (Text.trim s)

def clientData (E : Externals) (code deviceName : String) (platform : DevicePlatform)
    (pushProvider pushToken : Option String) (signingKey : DeviceSigningKeyRequest)
    (appAttestKeyId : String) : String :=
  "\n".intercalate
    ["nod-enrollment-v1",
      "code_sha256:" ++ E.sha256Hex (Text.trim code),
      "device_name_sha256:" ++ E.sha256Hex (Text.trim deviceName),
      "platform:" ++ platform.asStr,
      "push_provider:" ++ (normalized pushProvider).getD "",
      "push_token_sha256:" ++ ((normalized pushToken).map E.sha256Hex).getD "",
      "signing_key_id:" ++ Text.trim signingKey.keyId,
      "signing_key_algorithm:" ++ signingKey.algorithm,
      "signing_public_key_sha256:" ++ E.sha256Hex (Text.trim signingKey.publicKey),
      "attestation_provider:" ++ appleAppAttestProvider,
      "attestation_key_id:" ++ Text.trim appAttestKeyId,
      ""]

theorem normalized_eq (value : Option String) :
    normalized value = normalizedOptionalText value := by
  cases value with
  | none => rfl
  | some s =>
    unfold normalized normalizedOptionalText nilIfEmpty
    rw [Option.bind_some, Option.map_some]
    by_cases h : Text.trim s = ""
    · rw [if_pos h, h]
      rfl
    · rw [if_neg h, Option.filter_some, if_pos (decide_eq_true h)]

end NodKit

/-! ## What validation leaves to say -/

variable {P}

/-- What enrollment keeps of a request it accepts. -/
structure KeptOf (req : EnrollDeviceRequest) (push : PushRegistration)
    (key : DeviceSigningKeyRequest) : Prop where
  provider : push.provider = normalizedOptionalText req.pushProvider
  token : push.token = normalizedOptionalText req.pushToken
  algorithm : key.algorithm = decisionSigningAlgorithm
  keyId : ∃ label, validateId key.keyId label = .ok ()
  signingKey : ∃ raw, req.signingKey = some raw ∧ raw.algorithm = key.algorithm ∧
    Text.trim raw.keyId = key.keyId ∧ Text.trim raw.publicKey = key.publicKey

theorem normalizedPushRegistration_eq_ok {req : EnrollDeviceRequest} {push : PushRegistration}
    (h : normalizedPushRegistration req = .ok push) :
    push.provider = normalizedOptionalText req.pushProvider ∧
      push.token = normalizedOptionalText req.pushToken := by
  unfold normalizedPushRegistration at h
  obtain ⟨nativeAppId, -, h⟩ := bind_eq_ok.mp h
  split at h
  next hprovider htoken =>
    obtain ⟨-, -, h⟩ := bind_eq_ok.mp h
    rw [← pure_eq_ok.mp h, hprovider, htoken]
    exact ⟨rfl, rfl⟩
  next hprovider htoken =>
    rw [← pure_eq_ok.mp h, hprovider, htoken]
    exact ⟨rfl, rfl⟩
  next => exact nomatch h
  next => exact nomatch h

theorem keptOf_of_checkedEnrollment {req : EnrollDeviceRequest} {push : PushRegistration}
    {key : DeviceSigningKeyRequest} (h : checkedEnrollment P req = .ok (push, key)) :
    KeptOf req push key := by
  simp only [checkedEnrollment, bind_eq_ok, pure_eq_ok, Prod.mk.injEq] at h
  obtain ⟨-, -, push', hpush, key', hkey, rfl, rfl⟩ := h
  obtain ⟨hprovider, htoken⟩ := normalizedPushRegistration_eq_ok hpush
  simp only [normalizedSigningKey, bind_eq_ok, pure_eq_ok, orElse_eq_ok, refuseIf_eq_ok,
    not_not] at hkey
  obtain ⟨raw, hraw, _, hid, _, halgorithm, _, -, _, -, rfl⟩ := hkey
  exact ⟨hprovider, htoken, halgorithm, ⟨_, hid⟩, raw, hraw, rfl, rfl, rfl⟩

/-! ## One text from both builders -/

/-- The lines before the push provider. -/
def dataBefore (E : Externals) (req : AttestedEnrollment) : List String :=
  ["nod-enrollment-v1", "code_sha256:" ++ E.sha256Hex (Text.trim req.code),
    "device_name_sha256:" ++ E.sha256Hex (Text.trim req.deviceName),
    "platform:" ++ req.platform.asStr]

theorem length_dataBefore (E : Externals) (req : AttestedEnrollment) :
    (dataBefore E req).length = 4 := rfl

def providerLine (push : PushRegistration) : String := "push_provider:" ++ push.provider.getD ""

def tokenHash (E : Externals) (push : PushRegistration) : String :=
  (push.token.map E.sha256Hex).getD ""

/-- The lines after the push provider. -/
def dataAfter (E : Externals) (req : AttestedEnrollment) (push : PushRegistration)
    (key : DeviceSigningKeyRequest) : List String :=
  ["push_token_sha256:" ++ tokenHash E push, "signing_key_id:" ++ key.keyId,
    "signing_key_algorithm:" ++ key.algorithm,
    "signing_public_key_sha256:" ++ E.sha256Hex key.publicKey,
    "attestation_provider:" ++ appleAppAttestProvider,
    "attestation_key_id:" ++ Text.trim req.appAttestKeyId, ""]

theorem length_dataAfter (E : Externals) (req : AttestedEnrollment) (push : PushRegistration)
    (key : DeviceSigningKeyRequest) : (dataAfter E req push key).length = 7 := rfl

theorem ne_empty_of_validateId {id : String} (h : ∃ label, validateId id label = .ok ()) :
    id ≠ "" := by
  obtain ⟨label, hid⟩ := h
  exact (validateId_eq_ok.mp hid).1

theorem enrollmentClientData_eq (E : Externals) {req : AttestedEnrollment}
    {push : PushRegistration} {key : DeviceSigningKeyRequest}
    (h : KeptOf req.toEnrollDeviceRequest push key) :
    enrollmentClientData E req = (String.singleton '\n').intercalate
      (dataBefore E req ++ providerLine push :: dataAfter E req push key) := by
  obtain ⟨raw, hraw, halgorithm, hkeyId, hpublicKey⟩ := h.signingKey
  have hid : filledOr "" (some key.keyId) = key.keyId := by
    unfold filledOr
    rw [Option.filter_some, if_pos (decide_eq_true (ne_empty_of_validateId h.keyId))]
    rfl
  have halg : filledOr decisionSigningAlgorithm (some key.algorithm) = key.algorithm := by
    rw [h.algorithm]
    rfl
  unfold enrollmentClientData
  rw [hraw, ← h.provider, ← h.token]
  simp only [Option.map_some, Option.getD_some, hkeyId, hpublicKey, halgorithm, hid, halg]
  simp only [dataBefore, dataAfter, providerLine, tokenHash, List.cons_append, List.nil_append,
    ne_eq, reduceCtorEq, not_false_eq_true, String.intercalate_cons_of_ne_nil,
    String.intercalate_singleton, String.append_assoc, String.append_empty]
  rfl

/-- NodKit sends what the server expects. -/
theorem clientData_eq (E : Externals) {req : AttestedEnrollment} {push : PushRegistration}
    {key raw : DeviceSigningKeyRequest} (h : KeptOf req.toEnrollDeviceRequest push key)
    (hraw : req.signingKey = some raw) :
    NodKit.clientData E req.code req.deviceName req.platform req.pushProvider req.pushToken raw
      req.appAttestKeyId = enrollmentClientData E req := by
  rw [enrollmentClientData_eq E h]
  obtain ⟨raw', hraw', halgorithm, hkeyId, hpublicKey⟩ := h.signingKey
  have hsame := Option.some.inj (hraw.symm.trans hraw')
  subst hsame
  unfold NodKit.clientData
  rw [NodKit.normalized_eq, NodKit.normalized_eq, ← h.provider, ← h.token, hkeyId, hpublicKey,
    halgorithm]
  rfl

/-! ## The text names what enrollment keeps -/

theorem free_dataBefore (E : Externals) (req : AttestedEnrollment) :
    ∀ line ∈ dataBefore E req, Text.Free '\n' line := by
  have hplatform : Text.Free '\n' req.platform.asStr := by
    cases req.platform <;> decide
  unfold dataBefore
  simp only [List.forall_mem_cons, List.not_mem_nil, false_implies, implies_true, and_true]
  exact ⟨by decide, Text.free_append.mpr ⟨by decide, free_sha256Hex E _⟩,
    Text.free_append.mpr ⟨by decide, free_sha256Hex E _⟩,
    Text.free_append.mpr ⟨by decide, hplatform⟩⟩

theorem free_tokenHash (E : Externals) (push : PushRegistration) :
    Text.Free '\n' (tokenHash E push) := by
  unfold tokenHash
  cases push.token with
  | none =>
    show Text.Free '\n' ""
    decide
  | some token => exact free_sha256Hex E token

theorem free_dataAfter (E : Externals) {req : AttestedEnrollment} {push : PushRegistration}
    {key : DeviceSigningKeyRequest} (h : KeptOf req.toEnrollDeviceRequest push key)
    (hattest : Text.Free '\n' (Text.trim req.appAttestKeyId)) :
    ∀ line ∈ dataAfter E req push key, Text.Free '\n' line := by
  have halgorithm : Text.Free '\n' key.algorithm := by
    rw [h.algorithm]
    decide
  unfold dataAfter
  simp only [List.forall_mem_cons, List.not_mem_nil, false_implies, implies_true, and_true]
  exact ⟨Text.free_append.mpr ⟨by decide, free_tokenHash E push⟩,
    Text.free_append.mpr ⟨by decide, free_id h.keyId⟩,
    Text.free_append.mpr ⟨by decide, halgorithm⟩,
    Text.free_append.mpr ⟨by decide, free_sha256Hex E _⟩, by decide,
    Text.free_append.mpr ⟨by decide, hattest⟩, by decide⟩

theorem normalizedOptionalText_ne_empty (value : Option String) :
    normalizedOptionalText value ≠ some "" := by
  intro h
  obtain ⟨-, hne⟩ := Option.filter_eq_some_iff.mp h
  exact absurd hne (by decide)

/-- A provider that is present is not empty, so the line tells whether it is. -/
theorem getD_empty_inj {a b : Option String} (ha : a ≠ some "") (hb : b ≠ some "")
    (h : a.getD "" = b.getD "") : a = b := by
  cases a with
  | none =>
    cases b with
    | none => rfl
    | some t =>
      have ht : "" = t := h
      exact absurd (ht ▸ rfl) hb
  | some s =>
    cases b with
    | none =>
      have hs : s = "" := h
      exact absurd (hs ▸ rfl) ha
    | some t =>
      have hst : s = t := h
      rw [hst]

/-- No hash is empty, so the line tells whether there is a token. -/
theorem tokenHash_inj {E : Externals} {a b : PushRegistration}
    (hapart : ∀ s ∈ a.token, ∀ t ∈ b.token, TellsApart E s t)
    (h : tokenHash E a = tokenHash E b) : a.token = b.token := by
  have hne : ∀ s, E.sha256Hex s ≠ "" := by
    intro s hs
    have hlength := E.sha256Hex_length s
    rw [hs] at hlength
    exact absurd hlength (by decide)
  unfold tokenHash at h
  cases ha : a.token with
  | none =>
    cases hb : b.token with
    | none => rfl
    | some t =>
      rw [ha, hb] at h
      exact absurd h.symm (hne t)
  | some s =>
    cases hb : b.token with
    | none =>
      rw [ha, hb] at h
      exact absurd h (hne s)
    | some t =>
      rw [ha, hb] at h
      rw [hapart s ha t hb h]

/-- The hash tells the texts of these two requests apart. -/
structure HashesApart (E : Externals) (a b : AttestedEnrollment) : Prop where
  code : TellsApart E (Text.trim a.code) (Text.trim b.code)
  deviceName : TellsApart E (Text.trim a.deviceName) (Text.trim b.deviceName)
  pushToken : ∀ s ∈ normalizedOptionalText a.pushToken, ∀ t ∈ normalizedOptionalText b.pushToken,
    TellsApart E s t
  publicKey : ∀ k ∈ a.signingKey, ∀ l ∈ b.signingKey,
    TellsApart E (Text.trim k.publicKey) (Text.trim l.publicKey)

/-- The fields of two requests as enrollment reads them: trimmed, and absent when blank. -/
structure SameEnrollment (a b : AttestedEnrollment) (push push' : PushRegistration)
    (key key' : DeviceSigningKeyRequest) : Prop where
  code : Text.trim a.code = Text.trim b.code
  deviceName : Text.trim a.deviceName = Text.trim b.deviceName
  platform : a.platform = b.platform
  pushProvider : push.provider = push'.provider
  pushToken : push.token = push'.token
  signingKey : key = key'
  appAttestKeyId : Text.trim a.appAttestKeyId = Text.trim b.appAttestKeyId

theorem DevicePlatform.asStr_inj {a b : DevicePlatform} (h : a.asStr = b.asStr) : a = b := by
  cases a <;> cases b <;> first | rfl | exact absurd h (by decide)

theorem enrollmentClientData_inj {E : Externals} {a b : AttestedEnrollment}
    {push push' : PushRegistration} {key key' : DeviceSigningKeyRequest}
    (ha : KeptOf a.toEnrollDeviceRequest push key) (hb : KeptOf b.toEnrollDeviceRequest push' key')
    (hattest : Text.Free '\n' (Text.trim a.appAttestKeyId))
    (hattest' : Text.Free '\n' (Text.trim b.appAttestKeyId)) (hapart : HashesApart E a b)
    (h : enrollmentClientData E a = enrollmentClientData E b) :
    SameEnrollment a b push push' key key' := by
  rw [enrollmentClientData_eq E ha, enrollmentClientData_eq E hb] at h
  have hlengthBefore := (length_dataBefore E a).trans (length_dataBefore E b).symm
  have hlengthAfter := (length_dataAfter E a push key).trans (length_dataAfter E b push' key').symm
  obtain ⟨hbefore, hprovider, hafter⟩ := Text.joinOn_ends_inj (free_dataBefore E a)
    (free_dataBefore E b) (free_dataAfter E ha hattest) (free_dataAfter E hb hattest') hlengthBefore
    hlengthAfter h
  simp only [dataBefore, dataAfter, providerLine, List.cons.injEq, String.append_right_inj,
    true_and, and_true] at hbefore hprovider hafter
  obtain ⟨hcode, hname, hplatform⟩ := hbefore
  obtain ⟨htoken, hkeyId, halgorithm, hpublicKey, hattestId⟩ := hafter
  obtain ⟨raw, hraw, -, -, hrawKey⟩ := ha.signingKey
  obtain ⟨raw', hraw', -, -, hrawKey'⟩ := hb.signingKey
  have hproviders : push.provider = push'.provider := by
    refine getD_empty_inj ?_ ?_ hprovider
    · rw [ha.provider]
      exact normalizedOptionalText_ne_empty _
    · rw [hb.provider]
      exact normalizedOptionalText_ne_empty _
  have htokens : push.token = push'.token := by
    refine tokenHash_inj ?_ htoken
    rw [ha.token, hb.token]
    exact hapart.pushToken
  have hpublic : key.publicKey = key'.publicKey := by
    have htells := hapart.publicKey raw hraw raw' hraw'
    rw [hrawKey, hrawKey'] at htells
    exact htells hpublicKey
  have hkeys : key = key' := by
    cases key
    cases key'
    simp only at hkeyId halgorithm hpublic
    rw [hkeyId, halgorithm, hpublic]
  exact ⟨hapart.code hcode, hapart.deviceName hname, DevicePlatform.asStr_inj hplatform, hproviders,
    htokens, hkeys, hattestId⟩

variable (P) in
/-- What equal attested texts say, on requests that pass validation with attestation key ids free
    of line breaks; and that both builders write the same text. -/
structure EnrollmentData : Prop where
  injective : ∀ (a b : AttestedEnrollment) (push push' : PushRegistration)
    (key key' : DeviceSigningKeyRequest),
    checkedEnrollment P a.toEnrollDeviceRequest = .ok (push, key) →
    checkedEnrollment P b.toEnrollDeviceRequest = .ok (push', key') →
    Text.Free '\n' (Text.trim a.appAttestKeyId) → Text.Free '\n' (Text.trim b.appAttestKeyId) →
    HashesApart P.toExternals a b →
    enrollmentClientData P.toExternals a = enrollmentClientData P.toExternals b →
    SameEnrollment a b push push' key key'
  builders : ∀ (req : AttestedEnrollment) (push : PushRegistration)
    (key : DeviceSigningKeyRequest),
    checkedEnrollment P req.toEnrollDeviceRequest = .ok (push, key) →
    ∃ raw, req.signingKey = some raw ∧
      NodKit.clientData P.toExternals req.code req.deviceName req.platform req.pushProvider
        req.pushToken raw req.appAttestKeyId = enrollmentClientData P.toExternals req

theorem enrollment_data (P : Packages) : EnrollmentData P where
  injective a b push push' key key' ha hb hattest hattest' hapart h :=
    enrollmentClientData_inj (keptOf_of_checkedEnrollment ha) (keptOf_of_checkedEnrollment hb)
      hattest hattest' hapart h
  builders req push key h := by
    have hkept := keptOf_of_checkedEnrollment h
    obtain ⟨raw, hraw, -⟩ := hkept.signingKey
    exact ⟨raw, hraw, clientData_eq P.toExternals hkept hraw⟩

end Nod.Server
