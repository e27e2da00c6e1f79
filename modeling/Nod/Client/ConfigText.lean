import Nod.Client.Store
import Nod.Lib.JsonPretty
import Nod.Proto.Wire

/-
  The text of a configuration on disk, as `serde` derives it for `PersistedConfig`
  (`nod-client-core/src/store.rs`), `ServerProfile` and `StoredSigningKey`: indented JSON in UTF-8.
  Proved: it is read back as it was written (`configText`).
-/

namespace Nod.Client

open Std Lib Lib.Record
open Nod.Proto (JsonOf.optStr nullable_optStr plain_optStr)

/-! ## Maps -/

section

variable {α : Type}

def mapJson (write : α → Json) (m : ExtTreeMap String α) : Json :=
  .obj (m.toList.map fun entry => (entry.1, write entry.2))

/-- An object read as a map, where a later member of a key replaces an earlier one. -/
def mapOfJson (read : Json → Option α) : Json → Option (ExtTreeMap String α)
  | .obj ms =>
    (ms.mapM fun entry => (read entry.2).map fun a => (entry.1, a)).map fun entries =>
      ExtTreeMap.ofList entries
  | _ => none

theorem ofList_toList (m : ExtTreeMap String α) : ExtTreeMap.ofList m.toList = m := by
  refine ExtTreeMap.ext_getElem? fun k => ?_
  cases hk : m[k]? with
  | some a =>
    exact ExtTreeMap.getElem?_ofList_of_mem compare_self m.distinct_keys_toList
      (ExtTreeMap.mem_toList_iff_getElem?_eq_some.mpr hk)
  | none =>
    refine ExtTreeMap.getElem?_ofList_of_contains_eq_false ?_
    rw [ExtTreeMap.map_fst_toList_eq_keys, Bool.eq_false_iff]
    intro hmem
    have hin := ExtTreeMap.mem_keys.mp (List.contains_iff_mem.mp hmem)
    rw [ExtTreeMap.mem_iff_isSome_getElem?, hk] at hin
    cases hin

theorem mapOfJson_mapJson {read : Json → Option α} {write : α → Json}
    (h : ∀ a, read (write a) = some a) (m : ExtTreeMap String α) :
    mapOfJson read (mapJson write m) = some m := by
  have hentries : ∀ entries : List (String × α),
      (entries.map fun entry => (entry.1, write entry.2)).mapM
        (fun entry => (read entry.2).map fun a => (entry.1, a)) = some entries := by
    intro entries
    induction entries with
    | nil => rfl
    | cons entry entries ih =>
      rw [List.map_cons, List.mapM_cons, ih, h]
      rfl
  unfold mapJson mapOfJson
  dsimp only
  rw [hentries, Option.map_some, ofList_toList]

theorem floatFree_mapJson {write : α → Json} (h : ∀ a, (write a).FloatFree)
    (m : ExtTreeMap String α) : (mapJson write m).FloatFree := by
  refine (Json.floatFreeMembers_iff _).mpr fun member hmember => ?_
  obtain ⟨entry, -, rfl⟩ := List.mem_map.mp hmember
  exact h entry.2

end

/-! ## Records -/

def ServerProfile.toJson (p : ServerProfile) : Json :=
  .obj [("id", .str p.id), ("credential_id", JsonOf.optStr p.credentialId), ("name", .str p.name),
    ("base_url_string", .str p.baseUrlString), ("device_name", .str p.deviceName),
    ("device_id", JsonOf.optStr p.deviceId), ("user_id", JsonOf.optStr p.userId),
    ("user_name", JsonOf.optStr p.userName)]

def ServerProfile.ofJson (v : Json) : Option ServerProfile := do
  let ms ← (Shape.mk ["id", "credential_id", "name", "base_url_string", "device_name", "device_id",
    "user_id", "user_name"] false).members v
  let id ← required "id" string ms
  let credentialId ← withDefault none "credential_id" (nullable string) ms
  let name ← required "name" string ms
  let baseUrlString ← required "base_url_string" string ms
  let deviceName ← required "device_name" string ms
  let deviceId ← withDefault none "device_id" (nullable string) ms
  let userId ← withDefault none "user_id" (nullable string) ms
  let userName ← withDefault none "user_name" (nullable string) ms
  some { id, credentialId, name, baseUrlString, deviceName, deviceId, userId, userName }

def StoredSigningKey.toJson (k : StoredSigningKey) : Json :=
  .obj [("key_id", .str k.keyId), ("private_key", .str k.privateKey)]

def StoredSigningKey.ofJson (v : Json) : Option StoredSigningKey := do
  let ms ← (Shape.mk ["key_id", "private_key"] false).members v
  let keyId ← required "key_id" string ms
  let privateKey ← required "private_key" string ms
  some { keyId, privateKey }

def PersistedConfig.toJson (c : PersistedConfig) : Json :=
  .obj [("servers", .arr (c.servers.map ServerProfile.toJson)),
    ("selected_server_id", JsonOf.optStr c.selectedServerId),
    ("notification_sound", .str c.notificationSound),
    ("insecure_tokens", mapJson .str c.insecureTokens),
    ("insecure_signing_keys", mapJson StoredSigningKey.toJson c.insecureSigningKeys)]

def PersistedConfig.ofJson (v : Json) : Option PersistedConfig := do
  let ms ← (Shape.mk ["servers", "selected_server_id", "notification_sound", "insecure_tokens",
    "insecure_signing_keys"] false).members v
  let servers ← withDefault [] "servers" (items ServerProfile.ofJson) ms
  let selectedServerId ← withDefault none "selected_server_id" (nullable string) ms
  let notificationSound ← withDefault defaultNotificationSound "notification_sound" string ms
  let insecureTokens ← withDefault ∅ "insecure_tokens" (mapOfJson string) ms
  let insecureSigningKeys ←
    withDefault ∅ "insecure_signing_keys" (mapOfJson StoredSigningKey.ofJson) ms
  some { servers, selectedServerId, notificationSound, insecureTokens, insecureSigningKeys }

theorem ServerProfile.ofJson_toJson (p : ServerProfile) : ServerProfile.ofJson p.toJson = some p := by
  obtain ⟨id, credentialId, name, baseUrlString, deviceName, deviceId, userId, userName⟩ := p
  cases credentialId <;> cases deviceId <;> cases userId <;> cases userName <;> rfl

theorem StoredSigningKey.ofJson_toJson (k : StoredSigningKey) :
    StoredSigningKey.ofJson k.toJson = some k := rfl

theorem PersistedConfig.ofJson_toJson (c : PersistedConfig) :
    PersistedConfig.ofJson c.toJson = some c := by
  have hservers := @items_map _ ServerProfile.ofJson ServerProfile.toJson c.servers fun p _ =>
    p.ofJson_toJson
  have htokens := @mapOfJson_mapJson _ string .str (fun _ => rfl) c.insecureTokens
  have hkeys := mapOfJson_mapJson StoredSigningKey.ofJson_toJson c.insecureSigningKeys
  show (items ServerProfile.ofJson (.arr (c.servers.map ServerProfile.toJson))).bind _ = some c
  rw [hservers, Option.bind_some]
  show (nullable string (JsonOf.optStr c.selectedServerId)).bind _ = some c
  rw [nullable_optStr, Option.bind_some]
  show (mapOfJson string (mapJson .str c.insecureTokens)).bind _ = some c
  rw [htokens, Option.bind_some]
  show (mapOfJson StoredSigningKey.ofJson (mapJson _ c.insecureSigningKeys)).bind _ = some c
  rw [hkeys]
  rfl

theorem ServerProfile.floatFree (p : ServerProfile) : p.toJson.FloatFree :=
  ⟨trivial, (plain_optStr p.credentialId).1, trivial, trivial, trivial, (plain_optStr p.deviceId).1,
    (plain_optStr p.userId).1, (plain_optStr p.userName).1, trivial⟩

theorem PersistedConfig.floatFree (c : PersistedConfig) : c.toJson.FloatFree :=
  ⟨Nod.Proto.floatFree_items ServerProfile.floatFree _, (plain_optStr c.selectedServerId).1,
    trivial, @floatFree_mapJson _ .str (fun _ => trivial) _,
    @floatFree_mapJson _ StoredSigningKey.toJson (fun _ => ⟨trivial, trivial, trivial⟩) _, trivial⟩

/-! ## Bytes -/

def toVecPretty (v : Json) : List UInt8 := v.prettyText.toUTF8.data.toList

def jsonFromSlice (raw : List UInt8) : Option Json := do
  let text ← String.fromUTF8? ⟨raw.toArray⟩
  Json.parse text

theorem fromUTF8?_toUTF8 (s : String) : String.fromUTF8? s.toUTF8 = some s :=
  dif_pos s.isValidUTF8

theorem jsonFromSlice_toVecPretty {v : Json} (h : v.FloatFree) :
    jsonFromSlice (toVecPretty v) = some v := by
  have htext := fromUTF8?_toUTF8 v.prettyText
  have hbytes : (⟨(toVecPretty v).toArray⟩ : ByteArray) = v.prettyText.toUTF8 := rfl
  unfold jsonFromSlice
  rw [hbytes, htext]
  exact Json.parse_prettyText v h

/-- An encoding of configurations that is read back as it was written. -/
structure ConfigCodec where
  toVec : PersistedConfig → List UInt8
  fromSlice : List UInt8 → Option PersistedConfig
  fromSlice_toVec (c : PersistedConfig) : fromSlice (toVec c) = some c

/-- The encoding that `save_locked` writes and `read_config` reads. -/
def configText : ConfigCodec where
  toVec c := toVecPretty c.toJson
  fromSlice raw := (jsonFromSlice raw).bind PersistedConfig.ofJson
  fromSlice_toVec c := by
    rw [jsonFromSlice_toVecPretty c.floatFree, Option.bind_some, c.ofJson_toJson]

end Nod.Client
