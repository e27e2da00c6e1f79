import Nod.Client.Models
import Nod.Lib.OrdMap

/-
  What a shell of the client keeps on disk and in the credential store of its host
  (`nod-client-core/src/store.rs`): the configuration, and the tokens and signing keys, which are
  in the configuration itself or in the keyring. The keys of the Secure Enclave are the host's.
-/

namespace Nod.Client

open Std Lib Nod.Proto

structure StoredSigningKey where
  keyId : String
  privateKey : String
  deriving DecidableEq

structure PersistedConfig where
  servers : List ServerProfile
  selectedServerId : Option String
  notificationSound : String
  insecureTokens : ExtTreeMap String String
  insecureSigningKeys : ExtTreeMap String StoredSigningKey

def defaultNotificationSound : String := "default"

def PersistedConfig.default : PersistedConfig where
  servers := []
  selectedServerId := none
  notificationSound := defaultNotificationSound
  insecureTokens := ∅
  insecureSigningKeys := ∅

namespace ServerProfile

/-- The name a profile's credentials are kept under. -/
def credentialName (p : ServerProfile) : String := p.credentialId.getD p.id

end ServerProfile

/-! ## Credentials -/

/-- What one machine holds for the client: the configuration of the shell, the keyring by account,
    and the hardware keys of the host by profile. -/
structure Machine where
  persisted : PersistedConfig
  keyring : ExtTreeMap String String
  hostKeys : ExtTreeMap String String

structure CredentialStore where
  useConfigFile : Bool

inductive SignerBackend
  | software
  | foreign
  deriving DecidableEq

def tokenAccount (serverId : String) : String := "serverToken." ++ serverId

def signingKeyAccount (serverId : String) : String := "decisionSigningKey." ++ serverId

namespace CredentialStore

def removeExternalCredentials (store : CredentialStore) (config : PersistedConfig) :
    PersistedConfig :=
  if store.useConfigFile then config
  else { config with insecureTokens := ∅, insecureSigningKeys := ∅ }

def loadToken (store : CredentialStore) (m : Machine) (serverId : String) : Option String :=
  if store.useConfigFile then m.persisted.insecureTokens[serverId]?
  else m.keyring[tokenAccount serverId]?

def deleteToken (store : CredentialStore) (m : Machine) (serverId : String) : Machine :=
  let m := { m with persisted :=
    { m.persisted with insecureTokens := m.persisted.insecureTokens.erase serverId } }
  if store.useConfigFile then m else { m with keyring := m.keyring.erase (tokenAccount serverId) }

/-- `readKey` is how a signing key is read back from the text in the keyring. -/
def loadSigningKey (store : CredentialStore) (readKey : String → Option StoredSigningKey)
    (m : Machine) (serverId : String) : Option StoredSigningKey :=
  if store.useConfigFile then m.persisted.insecureSigningKeys[serverId]?
  else m.keyring[signingKeyAccount serverId]?.bind readKey

def deleteSigningKey (store : CredentialStore) (m : Machine) (serverId : String) : Machine :=
  let m := { m with persisted :=
    { m.persisted with insecureSigningKeys := m.persisted.insecureSigningKeys.erase serverId } }
  if store.useConfigFile then m
  else { m with keyring := m.keyring.erase (signingKeyAccount serverId) }

end CredentialStore

/-! ## Accounts -/

theorem tokenAccount_inj {a b : String} (h : tokenAccount a = tokenAccount b) : a = b :=
  (String.append_right_inj _).mp h

theorem signingKeyAccount_inj {a b : String} (h : signingKeyAccount a = signingKeyAccount b) :
    a = b := (String.append_right_inj _).mp h

theorem tokenAccount_ne_signingKeyAccount (a b : String) : tokenAccount a ≠ signingKeyAccount b := by
  intro h
  have htoken : "serverToken.".toList = 's' :: "erverToken.".toList := by decide
  have hkey : "decisionSigningKey.".toList = 'd' :: "ecisionSigningKey.".toList := by decide
  have hchars : "serverToken.".toList ++ a.toList = "decisionSigningKey.".toList ++ b.toList := by
    rw [← String.toList_append, ← String.toList_append]
    exact congrArg String.toList h
  rw [htoken, hkey, List.cons_append, List.cons_append] at hchars
  exact absurd (List.cons.inj hchars).1 (by decide)

/-! ## What a deletion leaves -/

namespace CredentialStore

variable (store : CredentialStore) (readKey : String → Option StoredSigningKey)

theorem loadToken_deleteToken (m : Machine) (name other : String) :
    store.loadToken (store.deleteToken m name) other =
      if other = name then none else store.loadToken m other := by
  unfold loadToken deleteToken
  cases store.useConfigFile with
  | true =>
    simp only [if_true]
    split
    · rename_i heq
      rw [heq, ExtTreeMap.getElem?_erase_self]
    · rename_i hne
      rw [OrdMap.getElem?_erase_of_ne fun heq => hne heq.symm]
  | false =>
    simp only [Bool.false_eq_true, if_false]
    split
    · rename_i heq
      rw [heq, ExtTreeMap.getElem?_erase_self]
    · rename_i hne
      rw [OrdMap.getElem?_erase_of_ne fun heq => hne (tokenAccount_inj heq).symm]

theorem loadToken_deleteSigningKey (m : Machine) (name other : String) :
    store.loadToken (store.deleteSigningKey m name) other = store.loadToken m other := by
  unfold loadToken deleteSigningKey
  cases store.useConfigFile with
  | true => simp only [if_true]
  | false =>
    simp only [Bool.false_eq_true, if_false]
    rw [OrdMap.getElem?_erase_of_ne (tokenAccount_ne_signingKeyAccount _ _).symm]

theorem loadSigningKey_deleteToken (m : Machine) (name other : String) :
    store.loadSigningKey readKey (store.deleteToken m name) other =
      store.loadSigningKey readKey m other := by
  unfold loadSigningKey deleteToken
  cases store.useConfigFile with
  | true => simp only [if_true]
  | false =>
    simp only [Bool.false_eq_true, if_false]
    rw [OrdMap.getElem?_erase_of_ne (tokenAccount_ne_signingKeyAccount _ _)]

theorem loadSigningKey_deleteSigningKey (m : Machine) (name other : String) :
    store.loadSigningKey readKey (store.deleteSigningKey m name) other =
      if other = name then none else store.loadSigningKey readKey m other := by
  unfold loadSigningKey deleteSigningKey
  cases store.useConfigFile with
  | true =>
    simp only [if_true]
    split
    · rename_i heq
      rw [heq, ExtTreeMap.getElem?_erase_self]
    · rename_i hne
      rw [OrdMap.getElem?_erase_of_ne fun heq => hne heq.symm]
  | false =>
    simp only [Bool.false_eq_true, if_false]
    split
    · rename_i heq
      rw [heq, ExtTreeMap.getElem?_erase_self]
      rfl
    · rename_i hne
      rw [OrdMap.getElem?_erase_of_ne fun heq => hne (signingKeyAccount_inj heq).symm]

end CredentialStore

end Nod.Client
